import Torpedo.Packet.Written
import Torpedo.Util.Codec

/-!
# What is read

What the decoders of IPv4 and of what is in it make of some fields that stand one behind the other.
-/

namespace Torpedo

open Decoder

variable {front data : List UInt8}

theorem Data.deserialize_eq (bs : List UInt8) (h : data = front ++ bs) (length : ℕ) :
    Data.deserialize data front.length length = .ok ⟨bs⟩ := by
  unfold Data.deserialize
  rw [h, if_pos (by rw [List.length_append]; omega), List.drop_left]

/-! ## ICMP -/

theorem ICMP.deserialize_eq {p : ICMP} {body : List UInt8} (hpayload : p.payload = some ⟨body⟩)
    (h : data = front ++ p.bytes) : ICMP.deserialize data front.length p.bytes.length = .ok p := by
  have hbytes : p.bytes = [p.icmpType] ++ ([p.icmpCode] ++ (bytesOf 2 p.checksum.toNat ++ body)) := by
    simp [bytes, Layout.bytes, layout, dataBytes, Data.serialize, hpayload]
  have hdata : data = front ++ [p.icmpType] ++ [p.icmpCode] ++ bytesOf 2 p.checksum.toNat ++ body := by
    simp [h, hbytes]
  unfold deserialize
  rw [h, decode_behind, ← h, hbytes, (parses_getByte _).run, (parses_getByte _).run,
    (parses_getShort _).run, rest_run, Data.deserialize_eq body hdata]
  cases p
  cases hpayload
  rfl

/-! ## TCP -/

/-- A segment as it is on the wire: the data offset and the flags are one word. -/
structure Segment where
  sourcePort : UInt16
  destinationPort : UInt16
  sequence : UInt32
  acknowledge : UInt32
  word : UInt16
  windowSize : UInt16
  checksum : UInt16
  urgentPointer : UInt16
  options : List UInt8
  body : List UInt8

namespace Segment

def bytes (s : Segment) : List UInt8 :=
  bytesOf 2 s.sourcePort.toNat ++ (bytesOf 2 s.destinationPort.toNat ++ (bytesOf 4 s.sequence.toNat ++
    (bytesOf 4 s.acknowledge.toNat ++ (bytesOf 2 s.word.toNat ++ (bytesOf 2 s.windowSize.toNat ++
    (bytesOf 2 s.checksum.toNat ++ (bytesOf 2 s.urgentPointer.toNat ++ (s.options ++ s.body))))))))

def dataOffset (s : Segment) : UInt8 := (s.word >>> 12).toUInt8

/-- The options are those that the data offset asks for, or all there is. -/
def Split (s : Segment) : Prop :=
  s.options.length =
    if 5 < s.dataOffset then min (s.dataOffset.toNat * 4 - 20) (s.options ++ s.body).length else 0

def decoded (s : Segment) : TCP where
  sourcePort := s.sourcePort
  destinationPort := s.destinationPort
  sequence := s.sequence
  acknowledge := s.acknowledge
  dataOffset := s.dataOffset
  flags := s.word &&& 0x1ff
  windowSize := s.windowSize
  checksum := s.checksum
  urgentPointer := s.urgentPointer
  options := if 5 < s.dataOffset then some s.options else none
  payload := some ⟨s.body⟩

theorem getOptions_eq {s : Segment} (hsplit : s.Split) {k : Option (List UInt8) → Decoder TCP}
    (front : List UInt8) : (TCP.getOptions s.dataOffset >>= k) (.behind front (s.options ++ s.body)) =
      k s.decoded.options (.behind (front ++ s.options) s.body) := by
  unfold Split at hsplit
  unfold TCP.getOptions decoded
  by_cases hlt : 5 < s.dataOffset
  · rw [if_pos hlt] at hsplit
    simp only [if_pos hlt]
    rw [bind_assoc, remaining_run, ← hsplit, bind_assoc, (parses_getBytes s.options).run]
    rfl
  · rw [if_neg hlt] at hsplit
    have hnil := List.eq_nil_of_length_eq_zero hsplit
    simp only [if_neg hlt, hnil, List.append_nil]
    rfl

theorem deserialize_eq {s : Segment} (hsplit : s.Split) (h : data = front ++ s.bytes) :
    TCP.deserialize data front.length s.bytes.length = .ok s.decoded := by
  unfold TCP.deserialize
  rw [h, decode_behind, ← h]
  unfold bytes
  rw [(parses_getShort _).run, (parses_getShort _).run, (parses_getInt _).run, (parses_getInt _).run,
    (parses_getShort _).run, (parses_getShort _).run, (parses_getShort _).run, (parses_getShort _).run]
  rw [show (s.word >>> 12).toUInt8 = s.dataOffset from rfl, getOptions_eq hsplit, rest_run,
    Data.deserialize_eq s.body (by simp [h, bytes])]
  rfl

end Segment

/-! ## UDP -/

namespace UDP

theorem deserialize_eq {sourcePort destinationPort length checksum : UInt16} {body : List UInt8}
    {bs : List UInt8} (hbs : bs = bytesOf 2 sourcePort.toNat ++ (bytesOf 2 destinationPort.toNat ++
      (bytesOf 2 length.toNat ++ (bytesOf 2 checksum.toNat ++ body)))) (h : data = front ++ bs) :
    UDP.deserialize data front.length bs.length =
      (fun payload => ⟨sourcePort, destinationPort, length, checksum, some payload⟩) <$>
        deserializePayload destinationPort sourcePort data (front.length + 8) body.length := by
  unfold deserialize
  rw [h, decode_behind, ← h, hbs, (parses_getShort _).run, (parses_getShort _).run,
    (parses_getShort _).run, (parses_getShort _).run, rest_run]
  simp only [List.length_append, length_bytesOf, Nat.add_assoc]
  cases deserializePayload destinationPort sourcePort data (front.length + 8) body.length <;> rfl

end UDP

/-! ## DHCP -/

namespace DHCP

theorem local_getByte : Local getByte := reads_getByte.local

theorem local_getShort : Local getShort := reads_getShort.local

theorem local_getInt : Local getInt := reads_getInt.local

theorem local_getBytes (n : ℕ) : Local (getBytes n) := (reads_getBytes n).local

theorem local_readString (maxLength : ℕ) : Local (readString maxLength) :=
  (local_getBytes maxLength).bind fun _ => local_pure _

theorem local_readOption (code : UInt8) : Local (readOption code) := by
  refine local_remaining.bind fun left => .ite ?_ (local_pure _)
  refine local_getByte.bind fun l => local_remaining.bind fun left => .ite ?_ (local_pure _)
  exact (local_getBytes _).bind fun _ => local_pure _

theorem local_readOptions (fuel : ℕ) (options : List DHCPOption) : Local (readOptions fuel options) := by
  induction fuel generalizing options with
  | zero => exact local_throw _
  | succ fuel ih =>
    refine local_remaining.bind fun left => .ite ?_ (local_pure _)
    refine local_getByte.bind fun code => .ite (ih _) (.ite (local_pure _) ?_)
    exact (local_readOption code).bind fun option => .ite (local_pure _) (ih _)

/-- The decoder reads the bytes of the message only. -/
theorem exists_local : ∃ d, Local d ∧ deserialize = decode d := by
  refine ⟨_, ?_, rfl⟩
  refine local_remaining.bind fun left => .ite (local_pure _) ?_
  refine local_getByte.bind fun opCode => local_getByte.bind fun hardwareType =>
    local_getByte.bind fun hardwareAddressLength => local_getByte.bind fun hops =>
    local_getInt.bind fun transactionId => local_getShort.bind fun seconds =>
    local_getShort.bind fun flags => local_getInt.bind fun clientIPAddress =>
    local_getInt.bind fun yourIPAddress => local_getInt.bind fun serverIPAddress =>
    local_getInt.bind fun gatewayIPAddress => (local_getBytes _).bind fun clientHardwareAddress =>
    (reads_skipBytes _).local.bind fun _ => (local_readString _).bind fun serverName =>
    (local_readString _).bind fun bootFileName => (reads_skipBytes _).local.bind fun _ =>
    local_remaining.bind fun left => (local_readOptions _ _).bind fun options => local_pure _

/-- A message is decoded in the same way wherever it is. -/
theorem deserialize_append (front bs : List UInt8) :
    deserialize (front ++ bs) front.length bs.length = deserialize bs 0 bs.length := by
  obtain ⟨d, hd, heq⟩ := exists_local
  rw [heq]
  exact hd.decode_eq front bs

end DHCP

/-! ## IPv4 -/

namespace IPv4

/-- The fields of a header of a packet as they are on the wire. -/
structure Header where
  version : UInt8
  diffServ : UInt8
  totalLength : UInt16
  identification : UInt16
  sscratch : UInt16
  ttl : UInt8
  protocol : UInt8
  checksum : UInt16
  sourceAddress : UInt32
  destinationAddress : UInt32
  options : List UInt8

namespace Header

def bytes (h : Header) : List UInt8 :=
  [h.version] ++ ([h.diffServ] ++ (bytesOf 2 h.totalLength.toNat ++ (bytesOf 2 h.identification.toNat ++
    (bytesOf 2 h.sscratch.toNat ++ ([h.ttl] ++ ([h.protocol] ++ (bytesOf 2 h.checksum.toNat ++
    (bytesOf 4 h.sourceAddress.toNat ++ (bytesOf 4 h.destinationAddress.toNat ++ h.options)))))))))

def headerLength (h : Header) : UInt8 := h.version &&& 0xf

/-- The options are those that the header length asks for. -/
def Split (h : Header) : Prop :=
  h.options.length = if 5 < h.headerLength then (h.headerLength.toNat - 5) * 4 else 0

def decoded (h : Header) (isTruncated : Bool) (payload : Payload) : IPv4 where
  version := h.version >>> 4
  headerLength := h.headerLength
  diffServ := h.diffServ
  totalLength := h.totalLength
  identification := h.identification
  flags := (h.sscratch >>> 13).toUInt8
  fragmentOffset := h.sscratch &&& 0x1fff
  ttl := h.ttl
  protocol := h.protocol
  checksum := h.checksum
  sourceAddress := h.sourceAddress
  destinationAddress := h.destinationAddress
  options := if 5 < h.headerLength then some h.options else none
  isTruncated
  payload := some payload

theorem length_bytes (h : Header) : h.bytes.length = 20 + h.options.length := by
  simp only [bytes, List.length_append, length_bytesOf, List.length_singleton]
  omega

theorem getOptions_eq {h : Header} (hsplit : h.Split) {k : Option (List UInt8) → Decoder IPv4}
    (front body : List UInt8) :
    (IPv4.getOptions h.headerLength >>= k) (.behind front (h.options ++ body)) =
      k (if 5 < h.headerLength then some h.options else none) (.behind (front ++ h.options) body) := by
  unfold Split at hsplit
  unfold IPv4.getOptions
  by_cases hlt : 5 < h.headerLength
  · rw [if_pos hlt] at hsplit
    simp only [if_pos hlt]
    rw [← hsplit, bind_assoc, (parses_getBytes h.options).run]
    rfl
  · rw [if_neg hlt] at hsplit
    have hnil := List.eq_nil_of_length_eq_zero hsplit
    simp only [if_neg hlt, hnil, List.append_nil]
    rfl

theorem deserialize_eq {h : Header} (hsplit : h.Split) {bs body : List UInt8}
    (hbs : bs = h.bytes ++ body) (hdata : data = front ++ bs) :
    IPv4.deserialize data front.length bs.length =
      (h.decoded (h.totalLength.toInt16.toInt ≠ bs.length)) <$>
        IPv4.deserializePayload h.protocol data (front.length + h.bytes.length) body.length := by
  have hlen := h.length_bytes
  unfold IPv4.deserialize
  rw [hdata, decode_behind, ← hdata]
  generalize hn : bs.length = n
  rw [hbs]
  unfold bytes
  simp only [List.append_assoc]
  rw [(parses_getByte _).run, (parses_getByte _).run, (parses_getShort _).run, (parses_getShort _).run,
    (parses_getShort _).run, (parses_getByte _).run, (parses_getByte _).run, (parses_getShort _).run,
    (parses_getInt _).run, (parses_getInt _).run, show h.version &&& 0xf = h.headerLength from rfl,
    getOptions_eq hsplit, rest_run]
  simp only [List.length_append, length_bytesOf, Nat.add_assoc, List.length_singleton]
  generalize IPv4.deserializePayload h.protocol data _ _ = r
  cases r <;> rfl

end Header

end IPv4

/-! ## Ethernet -/

namespace Ethernet

/-- The priority, the VLAN and the type, behind the addresses. -/
def Tag.ofTci (tci : Option UInt16) (etherType : UInt16) : Tag :=
  match tci with
  | none => ⟨0, vlanUntagged, etherType⟩
  | some tci => ⟨(tci >>> 13).toUInt8, tci &&& 0xfff, etherType⟩

def tagBytes (tci : Option UInt16) (etherType : UInt16) : List UInt8 :=
  match tci with
  | none => bytesOf 2 etherType.toNat
  | some tci => bytesOf 2 typeVlan.toNat ++ (bytesOf 2 tci.toNat ++ bytesOf 2 etherType.toNat)

theorem parses_getTag {tci : Option UInt16} {etherType : UInt16} (h : tci = none → etherType ≠ typeVlan) :
    Decoder.Parses getTag (tagBytes tci etherType) (.ofTci tci etherType) := by
  intro front ys
  unfold getTag
  cases tci with
  | none =>
    unfold tagBytes
    dsimp only
    rw [(parses_getShort _).run, if_neg (h rfl)]
    rfl
  | some tci =>
    unfold tagBytes
    dsimp only
    rw [List.append_assoc, (parses_getShort _).run, if_pos rfl, List.append_assoc,
      (parses_getShort _).run, (parses_getShort _).run]
    show Except.ok (_, ByteBuffer.behind _ _) = Except.ok (_, ByteBuffer.behind _ _)
    simp only [List.append_assoc]
    rfl

theorem parses_getMACAddress (a : MACAddress) : Decoder.Parses getMACAddress a.address a := by
  have hnew : MACAddress.valueOf a.address = .ok a := by
    obtain ⟨address, hlength⟩ := a
    unfold MACAddress.valueOf MACAddress.new
    rw [if_neg (by simp [hlength])]
    simp [hlength]
  intro front ys
  unfold getMACAddress
  have hbytes := parses_getBytes a.address
  rw [a.length_eq] at hbytes
  rw [hbytes.run, hnew]
  rfl

theorem deserialize_eq {destination source : MACAddress} {tci : Option UInt16} {etherType : UInt16}
    (h : tci = none → etherType ≠ typeVlan) {bs body : List UInt8}
    (hbs : bs = destination.address ++ (source.address ++ (tagBytes tci etherType ++ body)))
    (hdata : data = front ++ bs) :
    Ethernet.deserialize data front.length bs.length =
      (fun payload => some ⟨destination, source, (Tag.ofTci tci etherType).priorityCode,
        (Tag.ofTci tci etherType).vlanID, etherType, some payload⟩) <$>
        deserializePayload etherType data (front.length + 12 + (tagBytes tci etherType).length)
          body.length := by
  have hlen : bs.length ≠ 0 := by
    rw [hbs, List.length_append, destination.length_eq]
    omega
  have htype : (Tag.ofTci tci etherType).etherType = etherType := by
    cases tci <;> rfl
  have hheader : 6 + (6 + (tagBytes tci etherType).length) = 12 + (tagBytes tci etherType).length := by
    omega
  unfold Ethernet.deserialize
  rw [if_neg hlen, hdata, decode_behind, ← hdata, hbs, (parses_getMACAddress _).run,
    (parses_getMACAddress _).run, (parses_getTag h).run, rest_run, htype]
  simp only [List.length_append, destination.length_eq, source.length_eq, Nat.add_assoc, hheader]
  generalize deserializePayload etherType data _ _ = r
  cases r <;> rfl

end Ethernet

end Torpedo
