import Torpedo.Packet.Written
import Torpedo.Util.Codec

/-!
# Lengths that are written

UDP and IPv4 write the number of their bytes into a field of sixteen bits. The encoders take the size of
the array from the field, which is signed: what takes 32768 bytes is not written.
-/

namespace Torpedo

open Encoder

/-! ## UDP -/

namespace UDP

/-- The number of bytes of the header and the payload. -/
def size (p : UDP) : ℕ := 8 + p.body.length

theorem size_data {p : UDP} {data : List UInt8} (h : p.payload = some (.data ⟨data⟩)) :
    p.size = 8 + data.length := by
  unfold size body
  rw [h]
  rfl

/-- An array of the size is written, with the size in the field. -/
def WritesLength (p : UDP) (parent : Option IPv4) : Prop :=
  ∃ data q parent', p.serialize parent = .ok (data, q, parent') ∧ data.length = p.size ∧
    q.length.toNat = p.size % 65536 ∧ shortAt data 4 = q.length

theorem Fits.size_lt {p : UDP} (h : p.Fits) : p.size < 32768 := h.lt

theorem shortAt_bytes (p : UDP) : shortAt p.bytes 4 = p.length := by
  have hbytes : p.bytes = bytesOf 2 p.sourcePort.toNat ++ bytesOf 2 p.destinationPort.toNat ++
      bytesOf 2 p.length.toNat ++ (bytesOf 2 p.checksum.toNat ++ p.body) := List.append_assoc _ _ _
  rw [hbytes, List.append_assoc]
  exact Decoder.shortAt_append_bytesOf (bytesOf 2 p.sourcePort.toNat ++ bytesOf 2 p.destinationPort.toNat) _ _

theorem writesLength_iff (p : UDP) (parent : Option IPv4) : p.WritesLength parent ↔ p.Fits := by
  constructor
  · rintro ⟨data, q, parent', hserialize, -⟩
    by_contra hfits
    rw [serialize_error hfits] at hserialize
    cases hserialize
  · intro hfits
    refine ⟨_, _, _, serialize_eq hfits parent, length_bytes _, ?_, shortAt_bytes _⟩
    show (UInt16.ofNat (8 + p.body.length)).toNat = _
    exact UInt16.toNat_ofNat'

end UDP

/-! ## IPv4 -/

namespace IPv4

namespace Payload

/-- The number of bytes of a payload. -/
def size : Payload → ℕ
  | data packet => packet.serialize.length
  | icmp packet => 4 + (dataBytes packet.payload).length
  | tcp packet => (packet.setDataOffset.offset * 4).toNat + (dataBytes packet.payload).length
  | udp packet => packet.size

theorem length_sent {payload : Payload} (h : payload.Fits) (ipv4 : IPv4) :
    (payload.sent ipv4).bytes.length = payload.size := by
  cases payload with
  | data packet => rfl
  | icmp packet => exact packet.sent.length_bytes
  | udp packet => exact (packet.prepared.sent _).length_bytes
  | tcp packet =>
    have hlen := (packet.setDataOffset.sent (some (ipv4.setProtocol protocolTcp))).length_bytes
    have hoptions := TCP.length_optionBytes h
    have hsent : (packet.setDataOffset.sent (some (ipv4.setProtocol protocolTcp))).optionBytes =
      packet.setDataOffset.optionBytes := rfl
    rw [hsent] at hlen
    show (packet.setDataOffset.sent (some (ipv4.setProtocol protocolTcp))).bytes.length =
      (packet.setDataOffset.offset * 4).toNat + (dataBytes packet.payload).length
    rw [hlen]
    show _ + (dataBytes packet.payload).length = _
    omega

end Payload

/-- The number of bytes of the header and the payload. -/
def size (p : IPv4) : ℕ := 20 + p.optionsSize + (p.payload.map Payload.size).getD 0

theorem size_data {p : IPv4} {data : List UInt8} (hoptions : p.options = none)
    (hpayload : p.payload = some (.data ⟨data⟩)) : p.size = 20 + data.length := by
  unfold size optionsSize
  rw [hoptions, hpayload]
  rfl

/-- An array of the size is written, with the size in the field. -/
def WritesLength (p : IPv4) : Prop :=
  ∃ data q, p.serialize = .ok (data, q) ∧ data.length = p.size ∧
    q.totalLength.toNat = p.size % 65536 ∧ shortAt data 2 = q.totalLength

/-- The payload can be written, the options have whole words and their number is not negative in the
header, and the size is a positive number of sixteen bits. -/
structure LengthFits (p : IPv4) : Prop where
  payload : ∀ payload, p.payload = some payload → payload.Fits
  options : p.optionsSize % 4 = 0
  header : p.optionsSize < 492
  lt : p.size < 32768

theorem length_body {p : IPv4} (h : ∀ payload, p.payload = some payload → payload.Fits) :
    p.withPayload.body.length = (p.payload.map Payload.size).getD 0 := by
  unfold body withPayload
  match hpayload : p.payload with
  | none =>
    dsimp only
    rw [hpayload]
    rfl
  | some payload => exact Payload.length_sent (h payload hpayload) p

theorem lengthFits_iff (p : IPv4) : p.LengthFits ↔ p.Fits := by
  constructor
  · rintro ⟨payload, options, header, lt⟩
    refine ⟨payload, options, header, ?_⟩
    rwa [length_body payload]
  · rintro ⟨payload, options, header, lt⟩
    refine ⟨payload, options, header, ?_⟩
    rwa [length_body payload] at lt

theorem shortAt_bytes (p : IPv4) : shortAt p.bytes 2 = p.totalLength := by
  unfold bytes Layout.bytes layout
  simp only [List.append_assoc]
  exact Decoder.shortAt_append_bytesOf [_, _] _ _

theorem totalLength_prepared {p : IPv4} (h : p.Fits) : p.prepared.totalLength.toNat = p.size := by
  have hlt := h.lt
  have hint : p.prepared.totalLength.toInt16.toInt = p.size := by
    have hoptions := h.options
    have hheader := h.header
    unfold size
    rw [toInt_totalLength, toInt_headerLength, ← length_body h.payload]
    omega
  rw [length_body h.payload] at hlt
  rw [toInt_short] at hint
  unfold size at hint ⊢
  have := p.prepared.totalLength.toNat_lt
  split_ifs at hint <;> omega

theorem writesLength_iff (p : IPv4) : p.WritesLength ↔ p.LengthFits := by
  rw [lengthFits_iff]
  constructor
  · rintro ⟨data, q, hserialize, -⟩
    by_contra hfits
    rw [serialize_error hfits] at hserialize
    cases hserialize
  · intro hfits
    have hlt := hfits.lt
    have hsize : p.size = 20 + p.optionsSize + p.withPayload.body.length := by
      rw [size, length_body hfits.payload]
    have htotal : p.prepared.sent.totalLength.toNat = p.size := totalLength_prepared hfits
    refine ⟨_, _, serialize_eq hfits, ?_, ?_, shortAt_bytes _⟩
    · have hlen : p.prepared.sent.bytes.length = p.prepared.bytes.length := by
        rw [length_bytes, length_bytes]
        rfl
      rw [hlen, length_prepared, hsize]
    · rw [htotal, Nat.mod_eq_of_lt (by omega)]

end IPv4

/-- The lengths are written right exactly when they are positive as signed numbers, options have whole
words, and the payload can be written. -/
theorem lengths_written_iff (p : IPv4) (segment : UDP) (parent : Option IPv4) :
    (p.WritesLength ↔ p.LengthFits) ∧ (segment.WritesLength parent ↔ segment.Fits) :=
  ⟨p.writesLength_iff, segment.writesLength_iff parent⟩

/-- A packet with 32760 bytes of data. -/
def longUDP : UDP where
  sourcePort := 7
  destinationPort := 7
  length := 0
  checksum := 0
  payload := some (.data ⟨List.replicate 32760 0⟩)

/-- A packet with 32748 bytes of data. -/
def longIPv4 : IPv4 where
  version := 4
  headerLength := 0
  diffServ := 0
  totalLength := 0
  identification := 0
  flags := 0
  fragmentOffset := 0
  ttl := 64
  protocol := 0
  checksum := 0
  sourceAddress := 0x0a000001
  destinationAddress := 0x0a000002
  options := none
  isTruncated := false
  payload := some (.data ⟨List.replicate 32748 0⟩)

theorem size_longUDP : longUDP.size = 32768 := by
  rw [UDP.size_data (p := longUDP) rfl, List.length_replicate]

theorem size_longIPv4 : longIPv4.size = 32768 := by
  rw [IPv4.size_data (p := longIPv4) rfl rfl, List.length_replicate]

/-- The packets have 32768 bytes, fewer than 65536, and are not written. -/
theorem long_not_written :
    (longUDP.size ≤ 65535 ∧ ¬longUDP.WritesLength none) ∧
      longIPv4.size ≤ 65535 ∧ ¬longIPv4.WritesLength := by
  have hudp := size_longUDP
  have hipv4 := size_longIPv4
  refine ⟨⟨by omega, fun hwritten => ?_⟩, by omega, fun hwritten => ?_⟩
  · have hlt := ((longUDP.writesLength_iff none).1 hwritten).size_lt
    omega
  · have hlt := (longIPv4.writesLength_iff.1 hwritten).lt
    omega

end Torpedo
