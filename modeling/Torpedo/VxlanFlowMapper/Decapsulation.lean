import Torpedo.Packet.Frames
import Torpedo.VxlanFlowMapper.Manager

/-!
# What is in a frame of a VXLAN

The network identifier of a frame is read as a signed number, and the payload of UDP that it is in is not
always the bytes that were received: with a port of DHCP it is decoded, and written again.
-/

namespace Torpedo

open Decoder

/-! ## Signed words -/

/-- A word is moved as a signed number. -/
theorem toInt32_shiftRight_eight {n : UInt32} {high low : ℕ} (hn : n.toNat = high * 256 + low)
    (hlow : low < 256) :
    n.toInt32.toInt >>> (8 : ℕ) = if high < 2 ^ 23 then (high : ℤ) else high - 2 ^ 24 := by
  have hlt := n.toNat_lt
  have hword : n.toInt32.toInt = if 2 * n.toNat < 2 ^ 32 then (n.toNat : ℤ) else n.toNat - 2 ^ 32 :=
    BitVec.toInt_eq_toNat_cond n.toBitVec
  rw [hword, Int.shiftRight_eq_div_pow]
  split_ifs <;> omega

/-! ## The head of a message of DHCP -/

namespace DHCP

/-- The first bytes of a message stay what they were when it is decoded and written again. -/
theorem bytes_of_deserialize {a b c d : UInt8} {n : UInt32} {bs : List UInt8} {p : DHCP}
    (h : deserialize ([a] ++ ([b] ++ ([c] ++ ([d] ++ (bytesOf 4 n.toNat ++ bs))))) 0
      ([a] ++ ([b] ++ ([c] ++ ([d] ++ (bytesOf 4 n.toNat ++ bs))))).length = .ok p) (hfits : p.Fits) :
    ∃ bs', p.bytes = [a] ++ ([b] ++ ([c] ++ ([d] ++ (bytesOf 4 n.toNat ++ bs')))) := by
  unfold deserialize at h
  rw [decode_all, remaining_run] at h
  split_ifs at h
  · cases h
    exact absurd rfl hfits.address
  · rw [(parses_getByte _).run, (parses_getByte _).run, (parses_getByte _).run, (parses_getByte _).run,
      (parses_getInt _).run] at h
    obtain ⟨⟨q, b'⟩, hread, rfl⟩ := of_map_ok h
    have hhead : q.opCode = a ∧ q.hardwareType = b ∧ q.hardwareAddressLength = c ∧ q.hops = d ∧
        q.transactionId = n := by
      refine Yields.after (Q := fun q : DHCP => q.opCode = a ∧ q.hardwareType = b ∧
        q.hardwareAddressLength = c ∧ q.hops = d ∧ q.transactionId = n) ?_ _ _ _ hread
      exact fun _ => .after fun _ => .after fun _ => .after fun _ => .after fun _ => .after fun _ =>
        .after fun _ => .after fun _ => .after fun _ => .after fun _ => .after fun _ => .after fun _ =>
        .after fun _ => yields_pure ⟨rfl, rfl, rfl, rfl, rfl⟩
    obtain ⟨rfl, rfl, rfl, rfl, rfl⟩ := hhead
    unfold bytes
    rw [putList_eq]
    unfold headBytes
    simp only [List.append_assoc]
    exact ⟨_, rfl⟩

end DHCP

/-! ## Frames -/

/-- The header of a VXLAN: the network has 24 bits. -/
structure VxlanHeader where
  flags : UInt8
  reserved : UInt8 × UInt8 × UInt8
  vni : ℕ
  lastReserved : UInt8
  vni_lt : vni < 2 ^ 24

namespace VxlanHeader

/-- The number of the network and the byte behind it, as a word. -/
def word (h : VxlanHeader) : UInt32 := .ofNat (h.vni * 256 + h.lastReserved.toNat)

/-- The header in front of some bytes. -/
def encapsulate (h : VxlanHeader) (bs : List UInt8) : List UInt8 :=
  [h.flags] ++ ([h.reserved.1] ++ ([h.reserved.2.1] ++ ([h.reserved.2.2] ++
    (bytesOf 4 h.word.toNat ++ bs))))

variable (h : VxlanHeader) (bs : List UInt8)

theorem toNat_word : h.word.toNat = h.vni * 256 + h.lastReserved.toNat := by
  have hvni := h.vni_lt
  have hlast := h.lastReserved.toNat_lt
  unfold word
  rw [UInt32.toNat_ofNat']
  omega

theorem encapsulate_append (padding : List UInt8) :
    h.encapsulate bs ++ padding = h.encapsulate (bs ++ padding) := by
  simp [encapsulate]

@[simp] theorem length_encapsulate : (h.encapsulate bs).length = 8 + bs.length := by
  simp only [encapsulate, List.length_append, length_bytesOf, List.length_singleton]
  omega

theorem encapsulate_inj {bs' : List UInt8} : h.encapsulate bs = h.encapsulate bs' ↔ bs = bs' := by
  simp [encapsulate]

theorem slice_encapsulate :
    slice (h.encapsulate bs) 8 ((h.encapsulate bs).length - 8) = bs := by
  have hsplit : h.encapsulate bs = ([h.flags, h.reserved.1, h.reserved.2.1, h.reserved.2.2] ++
      bytesOf 4 h.word.toNat) ++ bs := by
    simp [encapsulate]
  unfold slice
  rw [length_encapsulate, Nat.add_sub_cancel_left, hsplit, List.drop_left' (by simp [length_bytesOf]),
    List.take_length]

end VxlanHeader

/-- A frame of a VXLAN: in a frame with an IPv4 packet, a UDP packet from any port to the port of the VXLAN,
with a frame in it. -/
structure VxlanFrame (vxlanPortNumber : ℤ) where
  destination : MACAddress
  source : MACAddress
  tci : Option UInt16
  header : IPv4.Header
  sourcePort : UInt16
  destinationPort : UInt16
  checksum : UInt16
  vxlan : VxlanHeader
  inner : List UInt8
  padding : List UInt8
  protocol : header.protocol = IPv4.protocolUdp
  toPort : (destinationPort.toNat : ℤ) = vxlanPortNumber
  wellFormed : header.WellFormed (UDP.fieldBytes sourcePort destinationPort (.ofNat (16 + inner.length)) checksum
    (vxlan.encapsulate inner))

namespace VxlanFrame

variable {vxlanPortNumber : ℤ}

def frame (f : VxlanFrame vxlanPortNumber) : IPv4Frame where
  destination := f.destination
  source := f.source
  tci := f.tci
  header := f.header
  payload := UDP.fieldBytes f.sourcePort f.destinationPort (.ofNat (16 + f.inner.length)) f.checksum
    (f.vxlan.encapsulate f.inner)
  padding := f.padding
  wellFormed := f.wellFormed

def bytes (f : VxlanFrame vxlanPortNumber) : List UInt8 := f.frame.bytes

/-- A port is one of DHCP. -/
def isDhcp (f : VxlanFrame vxlanPortNumber) : Bool :=
  UDP.decodeMap f.destinationPort || UDP.decodeMap f.sourcePort

end VxlanFrame

/-! ## What is extracted -/

namespace FlowMapper

variable (p : FlowMapper)

/-- The outer packets, the network, and the payload of UDP, which the inner packet is decoded from. -/
structure Decapsulated where
  outer : Ethernet
  outerIp : IPv4
  outerUdp : UDP
  udpPayload : List UInt8
  vnid : ℤ

namespace Decapsulated

/-- The bytes that the inner packet is decoded from. -/
def innerBytes (d : Decapsulated) : List UInt8 := slice d.udpPayload 8 (d.udpPayload.length - 8)

end Decapsulated

/-- The first part of `processPacketInMessage`. -/
def decapsulate (data : List UInt8) : Except Stop Decapsulated := do
  let outer ← orThrow (← Ethernet.deserialize data 0 data.length)
  let outerIp ← ipv4Of outer
  let outerUdp ← udpOf outerIp
  let payload ← udpPayload outerUdp
  let vnid ← vnidOf payload
  return ⟨outer, outerIp, outerUdp, payload, vnid⟩

/-- `getVnid` of a packet-in: −1 if it is not one of the VXLAN. Without bytes, the type of the packet is 0. -/
def getVnid (data : List UInt8) : Except Stop ℤ := do
  match ← Ethernet.deserialize data 0 data.length with
  | none => return -1
  | some ethernet =>
    if ethernet.etherType ≠ Ethernet.typeIPv4 then return -1
    else
      let ip ← ipv4Of ethernet
      if ip.protocol ≠ IPv4.protocolUdp then return -1
      else
        let udp ← udpOf ip
        if (udp.destinationPort.toNat : ℤ) ≠ p.vxlanPortNumber then return -1
        else
          let payload ← udpPayload udp
          vnidOf payload

/-- The entry of a packet has the network that was extracted, and the addresses of the inner packet. -/
theorem decapsulate_of_mappingOf {data : List UInt8} {m : OverlayFlowMappingEntry} (h : p.mappingOf data = .ok m) :
    ∃ d inner, decapsulate data = .ok d ∧
      Ethernet.deserialize d.udpPayload 8 (d.udpPayload.length - 8) = .ok (some inner) ∧
      m.vnid = d.vnid.repr ∧ m.innerSrcMac = inner.sourceMACAddress.toString ∧
      m.innerDstMac = inner.destinationMACAddress.toString := by
  unfold mappingOf at h
  obtain ⟨read, hread, h⟩ := of_bind_eq_ok h
  obtain ⟨outer, houter, h⟩ := of_bind_eq_ok h
  obtain ⟨outerIp, hip, h⟩ := of_bind_eq_ok h
  obtain ⟨outerUdp, hudp, h⟩ := of_bind_eq_ok h
  obtain ⟨payload, hpayload, h⟩ := of_bind_eq_ok h
  obtain ⟨vnid, hvnid, h⟩ := of_bind_eq_ok h
  obtain ⟨_ | inner, hinner, h⟩ := of_bind_eq_ok h
  · exact nomatch h
  · rw [show orThrow (some inner) = .ok inner from rfl, ok_bind] at h
    obtain ⟨addresses, -, h⟩ := of_bind_eq_ok h
    obtain ⟨innerEtherType, -, h⟩ := of_bind_eq_ok h
    cases h
    refine ⟨⟨outer, outerIp, outerUdp, payload, vnid⟩, inner, ?_, hinner, rfl, rfl, rfl⟩
    unfold decapsulate
    rw [hread, ok_bind, houter, ok_bind, hip, ok_bind, hudp, ok_bind, hpayload, ok_bind, hvnid]
    rfl

/-! ## What is read of a frame -/

variable {p} (f : VxlanFrame p.vxlanPortNumber)

/-- What is extracted of a frame is the network and the frame in it. -/
structure Extracts : Prop where
  getVnid : p.getVnid f.bytes = .ok f.vxlan.vni
  decapsulate : ∃ d, decapsulate f.bytes = .ok d ∧ d.vnid = f.vxlan.vni ∧ d.innerBytes = f.inner

/-- The payload of UDP, as it is read. -/
def readPayload : Except Stop (List UInt8) :=
  if f.isDhcp then do
    let bs := f.vxlan.encapsulate (f.inner ++ f.padding)
    let message ← DHCP.deserialize bs 0 bs.length
    message.serialize
  else .ok (f.vxlan.encapsulate (f.inner ++ f.padding))

theorem vnidOf_encapsulate (h : VxlanHeader) (bs : List UInt8) : vnidOf (h.encapsulate bs) =
    .ok (if h.vni < 2 ^ 23 then (h.vni : ℤ) else h.vni - 2 ^ 24) := by
  have hle : 8 ≤ (h.encapsulate bs).length := by
    rw [h.length_encapsulate]
    omega
  have hword : intAt ((h.encapsulate bs).drop 4) 0 = h.word := intAt_bytesOf _ _
  have hdecode : vnidOf (h.encapsulate bs) = _ := decode_over (Nat.zero_le _)
  rw [hdecode, setPosition_over (by omega), reads_getInt.run_over (by omega), hword,
    ← toInt32_shiftRight_eight h.toNat_word h.lastReserved.toNat_lt]
  rfl

/-- The UDP packet that is decoded of a frame. -/
def readUdp : Except Stop UDP :=
  (fun payload => ⟨f.sourcePort, f.destinationPort, .ofNat (16 + f.inner.length), f.checksum, some payload⟩) <$>
    if f.isDhcp then
      let bs := f.vxlan.encapsulate (f.inner ++ f.padding)
      .dhcp <$> DHCP.deserialize bs 0 bs.length
    else .ok (.data ⟨f.vxlan.encapsulate (f.inner ++ f.padding)⟩)

theorem readPayload_eq : readPayload f = readUdp f >>= udpPayload := by
  unfold readPayload readUdp
  split_ifs
  · dsimp only
    cases DHCP.deserialize (f.vxlan.encapsulate (f.inner ++ f.padding)) 0
      (f.vxlan.encapsulate (f.inner ++ f.padding)).length with
    | error e => rfl
    | ok message =>
      show message.serialize = (message.serialize >>= _) >>= _
      cases message.serialize <;> rfl
  · rfl

theorem deserialize_bytes : Ethernet.deserialize f.bytes 0 f.bytes.length =
    (fun udp => some (f.frame.decoded (.udp udp))) <$> readUdp f := by
  have hfields : f.frame.payload ++ f.padding = UDP.fieldBytes f.sourcePort f.destinationPort
      (.ofNat (16 + f.inner.length)) f.checksum (f.vxlan.encapsulate (f.inner ++ f.padding)) := by
    rw [← VxlanHeader.encapsulate_append]
    exact UDP.fieldBytes_append _
  have hudp := UDP.deserialize_fields f.frame.front hfields
  have hclass : ∀ data offset length, IPv4.deserializePayload IPv4.protocolUdp data offset length =
      .udp <$> UDP.deserialize data offset length := fun _ _ _ => rfl
  have hprotocol : f.frame.header.protocol = IPv4.protocolUdp := f.protocol
  refine f.frame.deserialize_eq.trans ?_
  rw [hprotocol, hclass]
  refine (congrArg (fun r : Except Stop UDP => (fun x => some (f.frame.decoded x)) <$> (.udp <$> r))
    hudp).trans ?_
  show (fun x => some (f.frame.decoded x)) <$> (.udp <$> readUdp f) = _
  cases readUdp f <;> rfl

theorem decapsulate_bytes : decapsulate f.bytes = (do
    let udp ← readUdp f
    let payload ← udpPayload udp
    let vnid ← vnidOf payload
    let outerIp := f.header.decoded f.frame.isTruncated (.udp udp)
    return ⟨f.frame.decoded (.udp udp), outerIp, udp, payload, vnid⟩) := by
  unfold decapsulate
  rw [deserialize_bytes]
  cases readUdp f <;> rfl

theorem getVnid_bytes : p.getVnid f.bytes = readPayload f >>= vnidOf := by
  unfold getVnid
  rw [deserialize_bytes, readPayload_eq]
  cases hread : readUdp f with
  | error e => rfl
  | ok udp =>
    have hport : (udp.destinationPort.toNat : ℤ) = p.vxlanPortNumber := by
      obtain ⟨payload, -, rfl⟩ := of_map_ok hread
      exact f.toPort
    show (if Ethernet.typeIPv4 ≠ Ethernet.typeIPv4 then .ok (-1)
      else if f.header.protocol ≠ IPv4.protocolUdp then .ok (-1)
      else if (udp.destinationPort.toNat : ℤ) ≠ p.vxlanPortNumber then .ok (-1)
      else udpPayload udp >>= vnidOf) = _
    rw [if_neg (not_not_intro rfl), if_neg (not_not_intro f.protocol), if_neg (not_not_intro hport)]
    rfl

/-! ## When it is the network and the frame -/

/-- The payload of UDP is read as it is without padding, or if it is a message of DHCP that is given back. -/
theorem readPayload_iff : readPayload f = .ok (f.vxlan.encapsulate f.inner) ↔
    if f.isDhcp then DHCP.Kept (f.vxlan.encapsulate f.inner) f.padding else f.padding = [] := by
  unfold readPayload
  split_ifs
  · rw [← DHCP.kept_iff, VxlanHeader.encapsulate_append]
    constructor
    · intro h
      obtain ⟨message, hmessage, hserialize⟩ := of_bind_eq_ok h
      exact ⟨message, hmessage, hserialize⟩
    · rintro ⟨message, hmessage, hserialize⟩
      dsimp only
      rw [hmessage]
      exact hserialize
  · rw [Except.ok.injEq, VxlanHeader.encapsulate_inj, List.append_right_eq_self]

/-- The header of the VXLAN is read as it is. -/
theorem exists_encapsulate {payload : List UInt8} (h : readPayload f = .ok payload) :
    ∃ bs, payload = f.vxlan.encapsulate bs := by
  unfold readPayload at h
  split_ifs at h
  · obtain ⟨message, hmessage, hserialize⟩ := of_bind_eq_ok h
    have hfits : message.Fits := by
      by_contra hnot
      exact nomatch (DHCP.serialize_error hnot).symm.trans hserialize
    cases (DHCP.serialize_eq hfits).symm.trans hserialize
    exact DHCP.bytes_of_deserialize hmessage hfits
  · exact ⟨_, (Except.ok.inj h).symm⟩

theorem Extracts.readPayload {f : VxlanFrame p.vxlanPortNumber} (h : Extracts f) :
    FlowMapper.readPayload f = .ok (f.vxlan.encapsulate f.inner) ∧ f.vxlan.vni < 2 ^ 23 := by
  obtain ⟨hvnid, d, hd, -, hinner⟩ := h
  rw [decapsulate_bytes] at hd
  obtain ⟨udp, hudp, hd⟩ := of_bind_eq_ok hd
  obtain ⟨payload, hpayload, hd⟩ := of_bind_eq_ok hd
  obtain ⟨vnid, -, hd⟩ := of_bind_eq_ok hd
  cases hd
  have hread : FlowMapper.readPayload f = .ok payload := by
    rw [readPayload_eq, hudp]
    exact hpayload
  obtain ⟨bs, rfl⟩ := exists_encapsulate f hread
  rw [getVnid_bytes, hread, ok_bind, vnidOf_encapsulate, Except.ok.injEq] at hvnid
  have hbs : bs = f.inner := (f.vxlan.slice_encapsulate bs).symm.trans hinner
  refine ⟨hbs ▸ hread, ?_⟩
  by_contra hnot
  rw [if_neg hnot] at hvnid
  omega

/-- When the network and the frame in a frame are extracted. -/
theorem extracts_iff : Extracts f ↔ f.vxlan.vni < 2 ^ 23 ∧
    if f.isDhcp then DHCP.Kept (f.vxlan.encapsulate f.inner) f.padding else f.padding = [] := by
  rw [← readPayload_iff]
  constructor
  · exact fun h => h.readPayload.symm
  · rintro ⟨hlt, hread⟩
    have hvnid := vnidOf_encapsulate f.vxlan f.inner
    rw [if_pos hlt] at hvnid
    constructor
    · rw [getVnid_bytes, hread]
      exact hvnid
    · rw [readPayload_eq] at hread
      obtain ⟨udp, hudp, hpayload⟩ := of_bind_eq_ok hread
      rw [decapsulate_bytes, hudp, ok_bind, hpayload, ok_bind, hvnid]
      exact ⟨_, rfl, rfl, f.vxlan.slice_encapsulate f.inner⟩

/-- The port of the VXLAN is 4789. -/
def vxlanMapper : FlowMapper where
  vxlanPortNumber := 4789
  order := .insertion
  macText := fun _ => ""
  ipText := fun _ => ""
  portText := fun _ => ""
  etherTypeText := fun _ => some ""

/-- A frame of the network `0x800000`, from the port 49152. The frame in it has no payload. -/
def upperFrame : VxlanFrame vxlanMapper.vxlanPortNumber where
  destination := IPv4Frame.hostAddress 2
  source := IPv4Frame.hostAddress 1
  tci := none
  header := ⟨0x45, 0, 50, 1, 0, 64, IPv4.protocolUdp, 0xf966, 0xc0a80001, 0xc0a80002, []⟩
  sourcePort := 49152
  destinationPort := 4789
  checksum := 0
  vxlan := ⟨8, (0, 0, 0), 0x800000, 0, by decide⟩
  inner := [0, 0, 0, 0, 0, 4, 0, 0, 0, 0, 0, 3, 0x88, 0xb5]
  padding := []
  protocol := rfl
  toPort := rfl
  wellFormed := ⟨by decide, by decide, by decide, by decide, by
    rw [OnesComplement.fold_eq_iff]
    decide⟩

theorem not_extracts : ¬∀ (p : FlowMapper) (f : VxlanFrame p.vxlanPortNumber), Extracts f := by
  intro hall
  exact absurd (hall vxlanMapper upperFrame).readPayload.2 (by decide)

end FlowMapper

end Torpedo
