import Torpedo.Packet.Matches

/-!
# Loaded matches

What `loadOFMatchFromPacket` reads at which place, and the frames for which this is what the decoder finds
(`Match.load_eq_iff`). A frame with a tag is taken for one of the type of the tag, the header of IPv4 may be
shorter than its fields, and the operation of ARP is taken for a protocol.
-/

namespace Torpedo

open Decoder

namespace Match

/-! ## Where the fields are read -/

section Runs

variable {data : List UInt8} {m : ℕ} {ret : Match}

/-- The fields of IPv4 from the bytes behind the position. -/
def ipv4At (data : List UInt8) (m : ℕ) (ret : Match) : Match :=
  { ret with
    ipDscp := some ((0xfc &&& byteAt data (m + 1)) >>> 2)
    ipEcn := some (0x3 &&& byteAt data (m + 1))
    ipProto := some (byteAt data (m + 9))
    ipv4Src := some (.exact (intAt data (m + 12)))
    ipv4Dst := some (.exact (intAt data (m + 16))) }

/-- Where the ports are read. -/
def transportAt (data : List UInt8) (m : ℕ) : ℕ := m + (0xf &&& byteAt data m).toNat * 4

theorem loadIPv4_over (hm : m + 20 ≤ data.length) (ht : transportAt data m ≤ data.length) :
    loadIPv4 ret (.overData data m) =
      .ok ((ipv4At data m ret, byteAt data (m + 9)), .overData data (transportAt data m)) := by
  unfold loadIPv4
  rw [reads_getByte.run_over (by omega), position_over (by omega), reads_getByte.run_over (by omega),
    position_over (by omega), setPosition_over (by omega), reads_getByte.run_over (by omega),
    position_over (by omega), setPosition_over (by omega), reads_getInt.run_over (by omega),
    reads_getInt.run_over (by omega)]
  simp only [byteAt_drop, intAt_drop, Nat.add_zero, Nat.add_sub_cancel]
  rw [show m + (0xf &&& byteAt data m).toNat * 4 = transportAt data m from rfl, setPosition_over ht]
  rfl

/-- The addresses are read behind hardware addresses of 6 bytes. -/
def arpAt (data : List UInt8) (m : ℕ) (ret : Match) : Match :=
  if shortAt data (m + 2) = 0x800 ∧ byteAt data (m + 5) = 4 then
    { ret with
      arpSpa := some (.exact (intAt data (m + 14)))
      arpTpa := some (.exact (intAt data (m + 24))) }
  else ret

theorem loadArpAddresses_over (hm : m + 8 ≤ data.length)
    (h : shortAt data (m + 2) = 0x800 → byteAt data (m + 5) = 4 → m + 28 ≤ data.length) :
    loadArpAddresses m ret (.overData data m) = .ok (arpAt data m ret, .overData data m) := by
  unfold loadArpAddresses arpAt
  rw [getShortAt_over (by omega)]
  by_cases htype : shortAt data (m + 2) = 0x800
  · rw [if_pos htype, getByteAt_over (by omega)]
    by_cases hlength : byteAt data (m + 5) = 4
    · have := h htype hlength
      rw [if_pos hlength, getIntAt_over (by omega), getIntAt_over (by omega), if_pos ⟨htype, hlength⟩]
      rfl
    · rw [if_neg hlength, if_neg fun h => hlength h.2]
      rfl
  · rw [if_neg htype, if_neg fun h => htype h.1]
    rfl

theorem loadArpAddresses_over_error (hm : m + 8 ≤ data.length) (htype : shortAt data (m + 2) = 0x800)
    (hlength : byteAt data (m + 5) = 4) (h : data.length < m + 28) :
    loadArpAddresses m ret (.overData data m) = .error .exception := by
  unfold loadArpAddresses
  rw [getShortAt_over (by omega), if_pos htype, getByteAt_over (by omega), if_pos hlength]
  by_cases hspa : m + 14 + 4 ≤ data.length
  · rw [getIntAt_over hspa, getIntAt_over_error (by omega)]
  · rw [getIntAt_over_error (by omega)]

theorem loadArp_over {arpOp : UInt16} (hm : m + 8 ≤ data.length)
    (hop : arpOpcode (shortAt data (m + 6)).toUInt8 = .ok arpOp) :
    loadArp ret (.overData data m) = (fun r => ((r.1, (shortAt data (m + 6)).toUInt8), r.2)) <$>
      loadArpAddresses m { ret with arpOp := some arpOp } (.overData data m) := by
  unfold loadArp
  rw [position_over (by omega), getShortAt_over (by omega), hop]
  show (loadArpAddresses m { ret with arpOp := some arpOp } (.overData data m) >>= _) = _
  cases loadArpAddresses m { ret with arpOp := some arpOp } (.overData data m) <;> rfl

theorem loadArp_over_error (hm : m + 8 ≤ data.length) (hop : ¬(shortAt data (m + 6)).toUInt8 < 0x80) :
    loadArp ret (.overData data m) = .error .exception := by
  unfold loadArp arpOpcode
  rw [position_over (by omega), getShortAt_over (by omega), if_neg hop]
  rfl

/-- The ports, for the protocols that have some. -/
def portsAt (data : List UInt8) (m : ℕ) (networkProtocol : UInt8) (ret : Match) : Match :=
  if networkProtocol = 0x06 then
    { ret with tcpSrc := some (shortAt data m), tcpDst := some (shortAt data (m + 2)) }
  else if networkProtocol = 0x11 then
    { ret with udpSrc := some (shortAt data m), udpDst := some (shortAt data (m + 2)) }
  else ret

theorem loadTransport_over {networkProtocol : UInt8}
    (h : networkProtocol = 0x06 ∨ networkProtocol = 0x11 → m + 4 ≤ data.length) :
    ∃ b, loadTransport networkProtocol ret (.overData data m) = .ok (portsAt data m networkProtocol ret, b) := by
  unfold loadTransport portsAt
  by_cases htcp : networkProtocol = 0x06
  · have := h (.inl htcp)
    rw [if_pos htcp, if_pos htcp, reads_getShort.run_over (by omega), reads_getShort.run_over (by omega)]
    simp only [shortAt_drop, Nat.add_zero]
    exact ⟨_, rfl⟩
  · rw [if_neg htcp, if_neg htcp]
    by_cases hudp : networkProtocol = 0x11
    · have := h (.inr hudp)
      rw [if_pos hudp, if_pos hudp, reads_getShort.run_over (by omega), reads_getShort.run_over (by omega)]
      simp only [shortAt_drop, Nat.add_zero]
      exact ⟨_, rfl⟩
    · rw [if_neg hudp, if_neg hudp]
      exact ⟨_, rfl⟩

/-- The fields of the header. -/
def head (data : List UInt8) (inputPort : OFPort) : Match where
  inPort := some inputPort
  ethDst := some (slice data 0 6)
  ethSrc := some (slice data 6 6)
  ethType := some (shortAt data 12)

/-- The fields of a header with a tag. -/
def taggedHead (data : List UInt8) (inputPort : OFPort) : Match :=
  if 0xfff &&& shortAt data 14 ≠ 0 then
    { head data inputPort with
      vlanVid := some (0xfff &&& shortAt data 14)
      vlanPcp := some ((0xe000 &&& shortAt data 14) >>> 13).toUInt8 }
  else head data inputPort

variable {version : OFVersion} {inputPort : OFPort} {l2only : Bool}

theorem load_eq (hm : 14 ≤ data.length) : loadOFMatchFromPacket version data inputPort l2only =
    Prod.fst <$> (loadVlan (shortAt data 12) (head data inputPort) >>=
      loadPayload version l2only (shortAt data 12)) (.overData data 14) := by
  have hdecode : ∀ d : Decoder Match, decode d data 0 data.length = Prod.fst <$> d (.overData data 0) :=
    fun d => decode_over (Nat.zero_le _)
  unfold loadOFMatchFromPacket
  rw [hdecode, (reads_getBytes 6).run_over (by omega), (reads_getBytes 6).run_over (by omega),
    reads_getShort.run_over (by omega), shortAt_drop]
  rfl

theorem load_untagged (hm : 14 ≤ data.length) (h : shortAt data 12 ≠ Ethernet.typeVlan) :
    loadOFMatchFromPacket version data inputPort l2only =
      Prod.fst <$> loadPayload version l2only (shortAt data 12) (head data inputPort) (.overData data 14) := by
  have hvlan : loadVlan (shortAt data 12) (head data inputPort) = pure (head data inputPort) := if_neg h
  rw [load_eq hm, hvlan, pure_bind]

theorem loadPayload_vlan {ret : Match} {b : ByteBuffer} :
    loadPayload version l2only Ethernet.typeVlan ret b = .ok (ret.build version, b) := by
  unfold loadPayload
  cases l2only <;> rfl

theorem load_tagged (hm : 18 ≤ data.length) (h : shortAt data 12 = Ethernet.typeVlan) :
    loadOFMatchFromPacket version data inputPort l2only =
      .ok ((taggedHead data inputPort).build version) := by
  have htag : shortAt data 12 = 0x8100 := h
  rw [load_eq (by omega)]
  unfold loadVlan taggedHead
  rw [if_pos htag, h, bind_assoc, reads_getShort.run_over (by omega), shortAt_drop, Nat.add_zero]
  by_cases hvid : 0xfff &&& shortAt data 14 = 0
  · rw [if_neg (not_not.2 hvid), if_neg (not_not.2 hvid), pure_bind, loadPayload_vlan]
    rfl
  · rw [if_pos hvid, if_pos hvid, pure_bind, loadPayload_vlan]
    rfl

end Runs

/-! ## What is built -/

section Built

variable {data : List UInt8} {version : OFVersion} {m : Match}

/-- `IP_ECN` is not set in OpenFlow 1.0. -/
def dropEcn (version : OFVersion) (m : Match) : Match :=
  if version = .of10 then { m with ipEcn := none } else m

theorem build_ipv4 (hversion : version ≠ .of11) (htype : m.ethType = some Ethernet.typeIPv4)
    (hports : m.ipProto = some 0x06 ∨ m.ipProto = some 0x11 ∨ m.withoutPorts = m) :
    m.build version = m.dropEcn version := by
  cases version with
  | of10 =>
    show normalized _ = { m with ipEcn := none }
    unfold normalized
    rw [if_pos htype]
    obtain h | h | h := hports
    · rw [if_pos (.inl h)]
    · rw [if_pos (.inr (.inl h))]
    · split_ifs
      · rfl
      · exact congrArg (fun m => { m with ipEcn := none }) h
  | of11 => exact absurd rfl hversion
  | of12 => rfl
  | of13 => rfl

theorem build_portsAt {n : ℕ} {networkProtocol : UInt8} (hversion : version ≠ .of11)
    (htype : m.ethType = some Ethernet.typeIPv4) (hproto : m.ipProto = some networkProtocol)
    (hports : m.withoutPorts = m) : (portsAt data n networkProtocol m).build version =
      (portsAt data n networkProtocol m).dropEcn version := by
  unfold portsAt
  by_cases htcp : networkProtocol = 0x06
  · rw [if_pos htcp]
    exact build_ipv4 hversion htype (.inl (hproto.trans (congrArg some htcp)))
  · rw [if_neg htcp]
    by_cases hudp : networkProtocol = 0x11
    · rw [if_pos hudp]
      exact build_ipv4 hversion htype (.inr (.inl (hproto.trans (congrArg some hudp))))
    · rw [if_neg hudp]
      exact build_ipv4 hversion htype (.inr (.inr hports))

/-- No fields are set that a frame of ARP does not have. -/
structure IsArp (m : Match) : Prop where
  ethType : m.ethType = some Ethernet.typeArp
  ipDscp : m.ipDscp = none
  ipEcn : m.ipEcn = none
  withoutPorts : m.withoutPorts = m

theorem IsArp.arpAt {n : ℕ} (h : m.IsArp) : (arpAt data n m).IsArp := by
  unfold Match.arpAt
  split_ifs
  · refine ⟨h.ethType, h.ipDscp, h.ipEcn, ?_⟩
    exact congrArg (fun m' : Match => { m' with
      arpSpa := some (.exact (intAt data (n + 14)))
      arpTpa := some (.exact (intAt data (n + 24))) }) h.withoutPorts
  · exact h

theorem build_arp {n : ℕ} {networkProtocol : UInt8} (hversion : version ≠ .of11) (h : m.IsArp) :
    (portsAt data n networkProtocol m).build version =
      if version = .of10 then m else portsAt data n networkProtocol m := by
  cases version with
  | of10 =>
    have hne : m.ethType ≠ some Ethernet.typeIPv4 := by
      rw [h.ethType]
      decide
    have hreset : { m.withoutPorts with ipDscp := none, ipEcn := none } = m := by
      have hsame (o o' : Option UInt8) (ho : m.ipDscp = o) (ho' : m.ipEcn = o') :
          { m with ipDscp := o, ipEcn := o' } = m := by
        subst ho ho'
        rfl
      rw [h.withoutPorts]
      exact hsame none none h.ipDscp h.ipEcn
    show normalized _ = m
    unfold normalized portsAt
    split_ifs <;> first | exact absurd ‹_› hne | exact absurd h.ethType ‹_› | exact hreset
  | of11 => exact absurd rfl hversion
  | of12 => rfl
  | of13 => rfl

/-- No ports are set. -/
theorem portsAt_eq_of_none {n : ℕ} {networkProtocol : UInt8} {m' : Match} (htcp : m'.tcpSrc = none)
    (hudp : m'.udpSrc = none) : portsAt data n networkProtocol m = m' ↔
      (networkProtocol ≠ 0x06 ∧ networkProtocol ≠ 0x11) ∧ m = m' := by
  unfold portsAt
  split_ifs with h6 h11
  · refine ⟨fun h => ?_, fun h => absurd h6 h.1.1⟩
    rw [← h] at htcp
    cases htcp
  · refine ⟨fun h => ?_, fun h => absurd h11 h.1.2⟩
    rw [← h] at hudp
    cases hudp
  · exact (and_iff_right ⟨h6, h11⟩).symm

theorem portsAt_dropEcn {n : ℕ} {networkProtocol : UInt8} :
    portsAt data n networkProtocol (m.dropEcn version) =
      (portsAt data n networkProtocol m).dropEcn version := by
  unfold portsAt dropEcn
  split_ifs <;> rfl

/-- The same ports are read at two places. -/
theorem portsAt_eq_iff {n n' : ℕ} {networkProtocol : UInt8} :
    portsAt data n networkProtocol m = portsAt data n' networkProtocol m ↔
      (networkProtocol = 0x06 ∨ networkProtocol = 0x11 →
        shortAt data n = shortAt data n' ∧ shortAt data (n + 2) = shortAt data (n' + 2)) := by
  unfold portsAt
  by_cases htcp : networkProtocol = 0x06
  · simp [htcp]
  · by_cases hudp : networkProtocol = 0x11
    · simp [hudp]
    · simp [htcp, hudp]

end Built

/-! ## Frames that are read right -/

section Iff

variable {data : List UInt8} {version : OFVersion} {inputPort : OFPort} {l2only : Bool} {eth : Ethernet}

/-- The header length of a packet of IPv4 without a tag before it. -/
def ihl (data : List UInt8) : ℕ := (0xf &&& byteAt data 14).toNat

/-- The header is not shorter than its fixed fields, or there are the same ports in it. -/
def IPv4Read (data : List UInt8) : Prop :=
  byteAt data 23 = 0x06 ∨ byteAt data 23 = 0x11 → 5 ≤ ihl data ∨
    (shortAt data (14 + ihl data * 4) = shortAt data 34 ∧
      shortAt data (14 + ihl data * 4 + 2) = shortAt data 36)

/-- Addresses of IPv4 are where they are behind hardware addresses of 6 bytes. -/
def ArpAddressesRead (data : List UInt8) : Prop :=
  shortAt data 16 = 0x800 → byteAt data 19 = 4 → byteAt data 18 = 6 ∨ 42 ≤ data.length ∧
    intAt data 28 = intAt data (22 + (byteAt data 18).toNat) ∧
    intAt data 38 = intAt data (26 + 2 * (byteAt data 18).toNat)

/-- The operation has seven bits, and it is not taken for the protocol of some ports. -/
def ArpRead (version : OFVersion) (data : List UInt8) : Prop :=
  shortAt data 20 < 0x80 ∧ (version = .of10 ∨ shortAt data 20 ≠ 0x06 ∧ shortAt data 20 ≠ 0x11) ∧
    ArpAddressesRead data

theorem toNat_ihl : ihl data = (byteAt data 14 &&& 0xf).toNat := by
  unfold ihl
  rw [UInt8.and_comm]

theorem payload_ipv4 {payload : Ethernet.Payload} {n : ℕ} (h : Ethernet.deserializePayload Ethernet.typeIPv4
    data n (data.length - n) = .ok payload) (hn : n ≤ data.length) :
    ∃ ip, payload = .ipv4 ip ∧ IPv4.At data n ip := by
  obtain ⟨ip, hip, rfl⟩ := of_map_ok h
  exact ⟨ip, rfl, IPv4.deserialize_at hn hip⟩

theorem payload_arp {payload : Ethernet.Payload} {n : ℕ} (h : Ethernet.deserializePayload Ethernet.typeArp
    data n (data.length - n) = .ok payload) (hn : n ≤ data.length) :
    ∃ arp, payload = .arp arp ∧ ARP.At data n arp := by
  obtain ⟨arp, harp, rfl⟩ := of_map_ok h
  exact ⟨arp, rfl, ARP.deserialize_at hn harp⟩

/-- The ports of the decoded payload are those behind the header. -/
theorem setTransport_eq {protocol : UInt8} {payload : IPv4.Payload} {n : ℕ} {m : Match}
    (hn : n ≤ data.length)
    (h : IPv4.deserializePayload protocol data n (data.length - n) = .ok payload) :
    m.setTransport (some payload) = portsAt data n protocol m ∧
      (protocol = 0x06 ∨ protocol = 0x11 → n + 4 ≤ data.length) := by
  by_cases htcp : protocol = 0x06
  · subst htcp
    obtain ⟨tcp, hdecode, rfl⟩ := of_map_ok h
    obtain ⟨hsize, hsource, hdestination⟩ := TCP.deserialize_at hn hdecode
    refine ⟨?_, fun _ => hsize⟩
    unfold setTransport portsAt
    rw [if_pos rfl, ← hsource, ← hdestination]
  · by_cases hudp : protocol = 0x11
    · subst hudp
      obtain ⟨udp, hdecode, rfl⟩ := of_map_ok h
      obtain ⟨hsize, hsource, hdestination⟩ := UDP.deserialize_at hn hdecode
      refine ⟨?_, fun _ => hsize⟩
      unfold setTransport portsAt
      rw [if_neg htcp, if_pos rfl, ← hsource, ← hdestination]
    · refine ⟨?_, fun h => absurd h (not_or.2 ⟨htcp, hudp⟩)⟩
      unfold portsAt
      rw [if_neg htcp, if_neg hudp]
      unfold IPv4.deserializePayload at h
      by_cases hicmp : protocol = IPv4.protocolIcmp
      · rw [if_pos hicmp] at h
        obtain ⟨icmp, -, rfl⟩ := of_map_ok h
        rfl
      · rw [if_neg hicmp, if_neg (show protocol ≠ IPv4.protocolTcp from htcp),
          if_neg (show protocol ≠ IPv4.protocolUdp from hudp)] at h
        obtain ⟨packet, -, rfl⟩ := of_map_ok h
        rfl

/-- The fields of the header, as they are decoded. -/
def decodedHead (inputPort : OFPort) (eth : Ethernet) : Match where
  inPort := some inputPort
  ethDst := some eth.destinationMACAddress.address
  ethSrc := some eth.sourceMACAddress.address
  ethType := some eth.etherType
  vlanVid := if eth.vlanID = Ethernet.vlanUntagged then none else some eth.vlanID
  vlanPcp := if eth.vlanID = Ethernet.vlanUntagged then none else some eth.priorityCode

theorem ofFrame_eq : ofFrame version inputPort l2only eth = if l2only then decodedHead inputPort eth else
    (decodedHead inputPort eth).setPayload version eth.payload := rfl

theorem decodedHead_untagged (heth : Ethernet.At data eth) (h : shortAt data 12 ≠ Ethernet.typeVlan) :
    decodedHead inputPort eth = head data inputPort := by
  have htag : Ethernet.tagAt data = ⟨0, Ethernet.vlanUntagged, shortAt data 12⟩ := if_neg h
  have hvlan : eth.vlanID = Ethernet.vlanUntagged := by rw [heth.vlanID, htag]
  unfold decodedHead head
  rw [heth.destination, heth.source, heth.etherType, htag, if_pos hvlan, if_pos hvlan]

theorem load_ipv4 (hm : 34 ≤ data.length) (htype : shortAt data 12 = Ethernet.typeIPv4)
    (ht : transportAt data 14 ≤ data.length)
    (hports : byteAt data 23 = 0x06 ∨ byteAt data 23 = 0x11 → transportAt data 14 + 4 ≤ data.length) :
    loadOFMatchFromPacket version data inputPort false =
      .ok ((portsAt data (transportAt data 14) (byteAt data 23)
        (ipv4At data 14 (head data inputPort))).build version) := by
  have hne : shortAt data 12 ≠ Ethernet.typeVlan := by
    rw [htype]
    decide
  obtain ⟨b, htransport⟩ : ∃ b, loadTransport (byteAt data 23) (ipv4At data 14 (head data inputPort))
      (.overData data (transportAt data 14)) = .ok (_, b) := loadTransport_over hports
  have hnetwork : loadNetwork (shortAt data 12) (head data inputPort) (.overData data 14) = _ :=
    (congrFun (if_pos htype) _).trans (loadIPv4_over (by omega) ht)
  rw [load_untagged (by omega) hne]
  show Prod.fst <$> (loadNetwork (shortAt data 12) (head data inputPort) >>= _) (.overData data 14) = _
  rw [bind_ok hnetwork]
  show Prod.fst <$> (loadTransport (byteAt data 23) (ipv4At data 14 (head data inputPort)) >>= _) _ = _
  rw [bind_ok htransport]
  rfl

theorem setIPv4_eq {ip : IPv4} {n : ℕ} {m : Match} (hip : IPv4.At data n ip) :
    m.setIPv4 version ip = (ipv4At data n m).dropEcn version := by
  have hbits : ∀ tos : BitVec 8, tos >>> 2 = (0xfc#8 &&& tos) >>> 2 := by decide
  have hdscp (tos : UInt8) : tos >>> 2 = (0xfc &&& tos) >>> 2 := UInt8.toBitVec_inj.1 (hbits tos.toBitVec)
  unfold setIPv4 dropEcn ipv4At
  rw [hip.diffServ, hip.protocol, hip.sourceAddress, hip.destinationAddress, hdscp, UInt8.and_comm _ 0x3]
  split_ifs <;> rfl

theorem load_ipv4_iff (heth : Ethernet.At data eth) (htype : shortAt data 12 = Ethernet.typeIPv4)
    (hversion : version ≠ .of11) : loadOFMatchFromPacket version data inputPort false =
      .ok (ofFrame version inputPort false eth) ↔ IPv4Read data := by
  have hne : shortAt data 12 ≠ Ethernet.typeVlan := by
    rw [htype]
    decide
  have hheader : Ethernet.headerSize data = 14 := if_neg hne
  have htag : Ethernet.tagAt data = ⟨0, Ethernet.vlanUntagged, shortAt data 12⟩ := if_neg hne
  have hsize := heth.size_le
  obtain ⟨payload, hpayload, hdecode⟩ := heth.payload
  rw [hheader] at hsize hdecode
  rw [heth.etherType, htag, htype] at hdecode
  obtain ⟨ip, rfl, hip⟩ := payload_ipv4 hdecode hsize
  obtain ⟨body, hbody, hdecode⟩ := hip.payload
  have hhead : decodedHead inputPort eth = head data inputPort := decodedHead_untagged heth hne
  have hhl : ip.headerLength.toNat = ihl data := by rw [hip.headerLength, toNat_ihl]
  have hend : 14 + (20 + (ihl data - 5) * 4) ≤ data.length := by
    rw [← hhl]
    exact hip.size_le
  rw [show IPv4.headerSize ip.headerLength = 20 + (ihl data - 5) * 4 by rw [← hhl, IPv4.headerSize],
    hip.protocol] at hdecode
  have htransport : transportAt data 14 = 14 + ihl data * 4 := rfl
  obtain ⟨hset, hports⟩ := setTransport_eq (m := (ipv4At data 14 (head data inputPort)).dropEcn version)
    hend hdecode
  have hload : loadOFMatchFromPacket version data inputPort false = _ :=
    load_ipv4 (by omega) htype (by omega) fun h =>
      (by omega : transportAt data 14 + 4 ≤ 14 + (20 + (ihl data - 5) * 4) + 4).trans (hports h)
  have hbuild : (portsAt data (transportAt data 14) (byteAt data 23)
      (ipv4At data 14 (head data inputPort))).build version = _ :=
    build_portsAt hversion (congrArg some htype) rfl rfl
  have hframe : ofFrame version inputPort false eth = portsAt data (14 + (20 + (ihl data - 5) * 4))
      (byteAt data 23) ((ipv4At data 14 (head data inputPort)).dropEcn version) := by
    rw [← hset, ← setIPv4_eq hip, ← hhead, ← hbody, ofFrame_eq, hpayload]
    rfl
  rw [hload, hbuild, hframe, ← portsAt_dropEcn, Except.ok.injEq, portsAt_eq_iff]
  refine imp_congr_right fun _ => ?_
  by_cases hlt : 5 ≤ ihl data
  · have heq : transportAt data 14 = 14 + (20 + (ihl data - 5) * 4) := by omega
    simp [hlt, heq]
  · have heq : 14 + (20 + (ihl data - 5) * 4) = 34 := by omega
    simp [hlt, heq, htransport]

theorem load_arp (hm : 22 ≤ data.length) (htype : shortAt data 12 = Ethernet.typeArp) {arpOp : UInt16}
    (hop : arpOpcode (shortAt data 20).toUInt8 = .ok arpOp)
    (haddresses : shortAt data 16 = 0x800 → byteAt data 19 = 4 → 42 ≤ data.length) :
    loadOFMatchFromPacket version data inputPort false =
      .ok ((portsAt data 14 (shortAt data 20).toUInt8
        (arpAt data 14 { head data inputPort with arpOp := some arpOp })).build version) := by
  have hne : shortAt data 12 ≠ Ethernet.typeVlan := by
    rw [htype]
    decide
  have hnetwork : loadNetwork (shortAt data 12) (head data inputPort) (.overData data 14) =
      .ok ((arpAt data 14 { head data inputPort with arpOp := some arpOp }, (shortAt data 20).toUInt8),
        .overData data 14) := by
    have harp : loadNetwork (shortAt data 12) (head data inputPort) = loadArp (head data inputPort) := by
      rw [htype]
      rfl
    rw [harp, loadArp_over (by omega) hop, loadArpAddresses_over (by omega) haddresses]
    rfl
  obtain ⟨b, htransport⟩ : ∃ b, loadTransport (shortAt data 20).toUInt8
      (arpAt data 14 { head data inputPort with arpOp := some arpOp }) (.overData data 14) = .ok (_, b) :=
    loadTransport_over fun _ => by omega
  rw [load_untagged (by omega) hne]
  show Prod.fst <$> (loadNetwork (shortAt data 12) (head data inputPort) >>= _) (.overData data 14) = _
  rw [bind_ok hnetwork]
  show Prod.fst <$> (loadTransport (shortAt data 20).toUInt8 _ >>= _) _ = _
  rw [bind_ok htransport]
  rfl

theorem load_arp_error (hm : 22 ≤ data.length) (htype : shortAt data 12 = Ethernet.typeArp)
    (h : ¬(shortAt data 20).toUInt8 < 0x80 ∨
      (shortAt data 16 = 0x800 ∧ byteAt data 19 = 4 ∧ data.length < 42)) :
    loadOFMatchFromPacket version data inputPort false = .error .exception := by
  have hne : shortAt data 12 ≠ Ethernet.typeVlan := by
    rw [htype]
    decide
  have hnetwork : loadNetwork (shortAt data 12) (head data inputPort) (.overData data 14) =
      .error .exception := by
    have harp : loadNetwork (shortAt data 12) (head data inputPort) = loadArp (head data inputPort) := by
      rw [htype]
      rfl
    rw [harp]
    by_cases hop : (shortAt data 20).toUInt8 < 0x80
    · obtain ⟨hptype, hlength, hlt⟩ := h.resolve_left (not_not.2 hop)
      rw [loadArp_over (by omega) (if_pos hop), loadArpAddresses_over_error (by omega) hptype hlength hlt]
      rfl
    · exact loadArp_over_error (by omega) hop
  rw [load_untagged (by omega) hne]
  show Prod.fst <$> (loadNetwork (shortAt data 12) (head data inputPort) >>= _) (.overData data 14) = _
  rw [bind_error hnetwork]
  rfl

theorem setArp_eq {arp : ARP} {n : ℕ} {m : Match} (harp : ARP.At data n arp) : m.setArp arp =
    if shortAt data (n + 2) = 0x800 ∧ byteAt data (n + 5) = 4 then
      { m with
        arpOp := some (shortAt data (n + 6))
        arpSpa := some (.exact (intAt data (n + 8 + (byteAt data (n + 4)).toNat)))
        arpTpa := some (.exact (intAt data (n + 12 + 2 * (byteAt data (n + 4)).toNat))) }
    else { m with arpOp := some (shortAt data (n + 6)) } := by
  have hint (k : ℕ) : intAt (slice data k 4) 0 = intAt data k := by
    unfold intAt slice
    rw [List.drop_zero, List.take_take, Nat.min_self]
  unfold setArp
  rw [harp.protocolType, harp.protocolAddressLength, harp.opCode]
  by_cases h : shortAt data (n + 2) = 0x800 ∧ byteAt data (n + 5) = 4
  · have htpa : n + 8 + 2 * (byteAt data (n + 4)).toNat + 4 = n + 12 + 2 * (byteAt data (n + 4)).toNat := by
      omega
    rw [if_pos h, if_pos h, harp.senderProtocolAddress, harp.targetProtocolAddress,
      harp.protocolAddressLength, harp.hardwareAddressLength, h.2, show (4 : UInt8).toNat = 4 from rfl,
      hint, hint, htpa]
  · rw [if_neg h, if_neg h]

/-- The addresses are those of the decoded packet. -/
theorem arpAt_eq_iff {arp : ARP} {n : ℕ} {m : Match} {arpOp : UInt16} (harp : ARP.At data n arp) :
    arpAt data n { m with arpOp := some arpOp } = m.setArp arp ↔ arpOp = shortAt data (n + 6) ∧
      (shortAt data (n + 2) = 0x800 → byteAt data (n + 5) = 4 →
        intAt data (n + 14) = intAt data (n + 8 + (byteAt data (n + 4)).toNat) ∧
          intAt data (n + 24) = intAt data (n + 12 + 2 * (byteAt data (n + 4)).toNat)) := by
  rw [setArp_eq harp]
  unfold arpAt
  by_cases h : shortAt data (n + 2) = 0x800 ∧ byteAt data (n + 5) = 4
  · simp [h, Masked.exact]
  · simp only [h, if_false, mk.injEq, Option.some.injEq, and_true, true_and]
    exact (and_iff_left fun htype hlength => absurd ⟨htype, hlength⟩ h).symm

theorem ports_setArp {arp : ARP} {m : Match} :
    (m.setArp arp).tcpSrc = m.tcpSrc ∧ (m.setArp arp).udpSrc = m.udpSrc := by
  unfold setArp
  split_ifs
  · exact ⟨rfl, rfl⟩
  · exact ⟨rfl, rfl⟩

theorem arpAddressesRead_iff
    (h : shortAt data 16 = 0x800 → byteAt data 19 = 4 → 42 ≤ data.length) :
    (shortAt data 16 = 0x800 → byteAt data 19 = 4 →
      intAt data 28 = intAt data (22 + (byteAt data 18).toNat) ∧
        intAt data 38 = intAt data (26 + 2 * (byteAt data 18).toNat)) ↔ ArpAddressesRead data := by
  refine imp_congr_ctx Iff.rfl fun hptype => imp_congr_ctx Iff.rfl fun hlength => ?_
  refine ⟨fun h' => .inr ⟨h hptype hlength, h'⟩, ?_⟩
  rintro (hhl | ⟨-, h⟩)
  · rw [hhl]
    exact ⟨rfl, rfl⟩
  · exact h

theorem load_arp_iff (heth : Ethernet.At data eth) (htype : shortAt data 12 = Ethernet.typeArp)
    (hversion : version ≠ .of11) : loadOFMatchFromPacket version data inputPort false =
      .ok (ofFrame version inputPort false eth) ↔ ArpRead version data := by
  have hne : shortAt data 12 ≠ Ethernet.typeVlan := by
    rw [htype]
    decide
  have hheader : Ethernet.headerSize data = 14 := if_neg hne
  have htag : Ethernet.tagAt data = ⟨0, Ethernet.vlanUntagged, shortAt data 12⟩ := if_neg hne
  have hsize := heth.size_le
  obtain ⟨payload, hpayload, hdecode⟩ := heth.payload
  rw [hheader] at hsize hdecode
  rw [heth.etherType, htag, htype] at hdecode
  obtain ⟨arp, rfl, harp⟩ := payload_arp hdecode hsize
  have hhead : decodedHead inputPort eth = head data inputPort := decodedHead_untagged heth hne
  have hframe : ofFrame version inputPort false eth = (head data inputPort).setArp arp := by
    rw [ofFrame_eq, hpayload, hhead]
    rfl
  have hend := harp.size_le
  have hmin : 22 ≤ data.length := by omega
  have hop (op : UInt16) : op < 0x80 ↔ op.toUInt8 < 0x80 ∧ op.toUInt8.toUInt16 = op := by
    rw [UInt16.lt_iff_toNat_lt, UInt8.lt_iff_toNat_lt, ← UInt16.toNat_inj, UInt8.toNat_toUInt16,
      UInt16.toNat_toUInt8]
    show op.toNat < 128 ↔ op.toNat % 256 < 128 ∧ op.toNat % 256 = op.toNat
    omega
  unfold ArpRead
  rw [hop]
  by_cases hsmall : (shortAt data 20).toUInt8 < 0x80
  · by_cases haddresses : shortAt data 16 = 0x800 → byteAt data 19 = 4 → 42 ≤ data.length
    · have hload : loadOFMatchFromPacket version data inputPort false = _ :=
        load_arp hmin htype (if_pos hsmall) haddresses
      have hshape : IsArp { head data inputPort with arpOp := some (shortAt data 20).toUInt8.toUInt16 } :=
        ⟨congrArg some htype, rfl, rfl, rfl⟩
      rw [hload, build_arp hversion hshape.arpAt, hframe, Except.ok.injEq]
      have hsame : arpAt data 14 { head data inputPort with
          arpOp := some (shortAt data 20).toUInt8.toUInt16 } = (head data inputPort).setArp arp ↔ _ :=
        arpAt_eq_iff harp
      have hports : portsAt data 14 (shortAt data 20).toUInt8 (arpAt data 14 { head data inputPort with
          arpOp := some (shortAt data 20).toUInt8.toUInt16 }) = (head data inputPort).setArp arp ↔ _ :=
        portsAt_eq_of_none (ports_setArp.1.trans rfl) (ports_setArp.2.trans rfl)
      rw [arpAddressesRead_iff haddresses] at hsame
      have hbyte (k : UInt8) (h : (shortAt data 20).toUInt8.toUInt16 = shortAt data 20) :
          (shortAt data 20).toUInt8 = k ↔ shortAt data 20 = k.toUInt16 := by
        rw [← UInt8.toUInt16_inj, h]
      by_cases hv : version = .of10
      · rw [if_pos hv, hsame]
        exact ⟨fun h => ⟨⟨hsmall, h.1⟩, .inl hv, h.2⟩, fun h => ⟨h.1.2, h.2.2⟩⟩
      · rw [if_neg hv, hports, hsame]
        constructor
        · rintro ⟨⟨h6, h11⟩, hsame, hread⟩
          exact ⟨⟨hsmall, hsame⟩, .inr ⟨(hbyte _ hsame).not.1 h6, (hbyte _ hsame).not.1 h11⟩, hread⟩
        · rintro ⟨⟨-, hsame⟩, hprotocol, hread⟩
          obtain ⟨h6, h11⟩ := hprotocol.resolve_left hv
          exact ⟨⟨(hbyte _ hsame).not.2 h6, (hbyte _ hsame).not.2 h11⟩, hsame, hread⟩
    · push Not at haddresses
      obtain ⟨hptype, hlength, hlt⟩ := haddresses
      rw [load_arp_error hmin htype (.inr ⟨hptype, hlength, hlt⟩)]
      refine ⟨nofun, fun h => ?_⟩
      obtain hhl | ⟨hle, -⟩ := h.2.2 hptype hlength
      · rw [harp.hardwareAddressLength, harp.protocolAddressLength, hhl, hlength] at hend
        have : 14 + 8 + 2 * 6 + 4 + 4 ≤ data.length := hend
        omega
      · omega
  · rw [load_arp_error hmin htype (.inl hsmall)]
    exact ⟨nofun, fun h => absurd h.1.1 hsmall⟩

theorem priorityCode_eq (tci : UInt16) : (0xe000 &&& tci) >>> 13 = tci >>> 13 := by
  have hlt := tci.toNat_lt
  rw [← UInt16.toNat_inj, UInt16.toNat_shiftRight, UInt16.toNat_shiftRight, UInt16.toNat_and]
  show (0xe000 &&& tci.toNat) >>> 13 = tci.toNat >>> 13
  rw [Nat.shiftRight_and_distrib, Nat.and_comm]
  show tci.toNat >>> 13 &&& 2 ^ 3 - 1 = _
  rw [Nat.and_two_pow_sub_one_eq_mod, Nat.shiftRight_eq_div_pow]
  omega

theorem vlanID_ne (tci : UInt16) : tci &&& 0xfff ≠ Ethernet.vlanUntagged := by
  intro h
  have hnat := congrArg UInt16.toNat h
  rw [UInt16.toNat_and] at hnat
  have hmask : tci.toNat &&& 2 ^ 12 - 1 = 65535 := hnat
  rw [Nat.and_two_pow_sub_one_eq_mod] at hmask
  omega
theorem build_head (hversion : version ≠ .of11) :
    (head data inputPort).build version = head data inputPort := by
  cases version with
  | of10 =>
    show normalized _ = _
    unfold normalized
    split_ifs <;> rfl
  | of11 => exact absurd rfl hversion
  | of12 => rfl
  | of13 => rfl

theorem build_taggedHead (hversion : version ≠ .of11) :
    (taggedHead data inputPort).build version = taggedHead data inputPort := by
  unfold taggedHead
  split_ifs
  · cases version with
    | of10 =>
      show normalized { head data inputPort with
        vlanVid := some (0xfff &&& shortAt data 14)
        vlanPcp := some ((0xe000 &&& shortAt data 14) >>> 13).toUInt8 } = _
      unfold normalized
      split_ifs <;> rfl
    | of11 => exact absurd rfl hversion
    | of12 => rfl
    | of13 => rfl
  · exact build_head hversion

/-- The payload does not change the fields of the header. -/
theorem head_setPayload {m : Match} {payload : Option Ethernet.Payload} :
    (m.setPayload version payload).inPort = m.inPort ∧ (m.setPayload version payload).ethType = m.ethType ∧
      (m.setPayload version payload).vlanVid = m.vlanVid := by
  unfold setPayload
  split
  · unfold setTransport
    split <;> exact ⟨rfl, rfl, rfl⟩
  · unfold setArp
    split_ifs <;> exact ⟨rfl, rfl, rfl⟩
  · exact ⟨rfl, rfl, rfl⟩

theorem head_ofFrame : (ofFrame version inputPort l2only eth).inPort = some inputPort ∧
    (ofFrame version inputPort l2only eth).ethType = some eth.etherType ∧
    (ofFrame version inputPort l2only eth).vlanVid =
      if eth.vlanID = Ethernet.vlanUntagged then none else some eth.vlanID := by
  rw [ofFrame_eq]
  cases l2only with
  | true => exact ⟨rfl, rfl, rfl⟩
  | false => exact head_setPayload

/-- Another tag follows, and the VLAN is not 0. -/
def TagRead (data : List UInt8) : Prop :=
  shortAt data 16 = Ethernet.typeVlan ∧ 0xfff &&& shortAt data 14 ≠ 0

theorem load_tagged_iff (heth : Ethernet.At data eth) (htype : shortAt data 12 = Ethernet.typeVlan)
    (hversion : version ≠ .of11) : loadOFMatchFromPacket version data inputPort l2only =
      .ok (ofFrame version inputPort l2only eth) ↔ TagRead data := by
  have hheader : Ethernet.headerSize data = 18 := if_pos htype
  have htag : Ethernet.tagAt data =
    ⟨(shortAt data 14 >>> 13).toUInt8, shortAt data 14 &&& 0xfff, shortAt data 16⟩ := if_pos htype
  have hsize := heth.size_le
  rw [hheader] at hsize
  have hvlan := heth.vlanID
  have hpriority := heth.priorityCode
  have hinner := heth.etherType
  rw [htag] at hvlan hpriority hinner
  have hne : eth.vlanID ≠ Ethernet.vlanUntagged := by
    rw [hvlan]
    exact vlanID_ne _
  rw [load_tagged hsize htype, build_taggedHead hversion, Except.ok.injEq]
  constructor
  · intro h
    have hethType : (ofFrame version inputPort l2only eth).ethType = _ := head_ofFrame.2.1
    have hvlanVid : (ofFrame version inputPort l2only eth).vlanVid = _ := head_ofFrame.2.2
    rw [← h, hinner] at hethType
    rw [← h, if_neg hne] at hvlanVid
    unfold taggedHead at hethType hvlanVid
    split_ifs at hethType hvlanVid with hvid
    · exact ⟨(Option.some.inj hethType).symm.trans htype, hvid⟩
    · cases hvlanVid
  · rintro ⟨hagain, hvid⟩
    obtain ⟨payload, hpayload, hdecode⟩ := heth.payload
    rw [hinner, hagain] at hdecode
    have hdata : Ethernet.Payload.data <$> Data.deserialize data (Ethernet.headerSize data)
        (data.length - Ethernet.headerSize data) = .ok payload := hdecode
    obtain ⟨packet, -, rfl⟩ := of_map_ok hdata
    have hframe : ofFrame version inputPort l2only eth = decodedHead inputPort eth := by
      rw [ofFrame_eq, hpayload]
      cases l2only <;> rfl
    rw [hframe]
    unfold taggedHead decodedHead head
    rw [if_pos hvid, if_neg hne, if_neg hne, heth.destination, heth.source, hvlan, hpriority, hinner,
      htype, hagain, UInt16.and_comm 0xfff, priorityCode_eq]

theorem load_other_iff (heth : Ethernet.At data eth) (hvlan : shortAt data 12 ≠ Ethernet.typeVlan)
    (hipv4 : shortAt data 12 ≠ Ethernet.typeIPv4) (harp : shortAt data 12 ≠ Ethernet.typeArp)
    (hversion : version ≠ .of11) : loadOFMatchFromPacket version data inputPort false =
      .ok (ofFrame version inputPort false eth) ↔ shortAt data 12 ≠ Ethernet.typeRarp := by
  have hheader : Ethernet.headerSize data = 14 := if_neg hvlan
  have htag : Ethernet.tagAt data = ⟨0, Ethernet.vlanUntagged, shortAt data 12⟩ := if_neg hvlan
  have hsize := heth.size_le
  rw [hheader] at hsize
  have hload : loadOFMatchFromPacket version data inputPort false = .ok (head data inputPort) := by
    have hnetwork : loadNetwork (shortAt data 12) (head data inputPort) =
        pure (head data inputPort, 0) := (if_neg hipv4).trans (if_neg harp)
    rw [load_untagged hsize hvlan]
    unfold loadPayload
    rw [hnetwork]
    show Except.ok ((head data inputPort).build version) = _
    rw [build_head hversion]
  obtain ⟨payload, hpayload, hdecode⟩ := heth.payload
  rw [hload, Except.ok.injEq, ofFrame_eq, decodedHead_untagged heth hvlan, hpayload]
  rw [heth.etherType, htag] at hdecode
  unfold Ethernet.deserializePayload at hdecode
  dsimp only at hdecode
  rw [if_neg harp] at hdecode
  by_cases hrarp : shortAt data 12 = Ethernet.typeRarp
  · rw [if_pos hrarp] at hdecode
    obtain ⟨arp, -, rfl⟩ := of_map_ok hdecode
    refine ⟨fun h => ?_, fun h => absurd hrarp h⟩
    have hop : ((head data inputPort).setArp arp).arpOp = some arp.opCode := by
      unfold setArp
      split_ifs <;> rfl
    have hnone : ((head data inputPort).setArp arp).arpOp = none := congrArg Match.arpOp h.symm
    rw [hop] at hnone
    cases hnone
  · rw [if_neg hrarp, if_neg hipv4] at hdecode
    refine ⟨fun _ => hrarp, fun _ => ?_⟩
    split_ifs at hdecode
    · obtain ⟨lldp, -, rfl⟩ := of_map_ok hdecode
      rfl
    · obtain ⟨bsn, -, rfl⟩ := of_map_ok hdecode
      rfl
    · obtain ⟨packet, -, rfl⟩ := of_map_ok hdecode
      rfl

/-- The frames that are read right. -/
def Read (version : OFVersion) (l2only : Bool) (data : List UInt8) : Prop :=
  version ≠ .of11 ∧
    if shortAt data 12 = Ethernet.typeVlan then TagRead data
    else l2only = false →
      if shortAt data 12 = Ethernet.typeIPv4 then IPv4Read data
      else if shortAt data 12 = Ethernet.typeArp then ArpRead version data
      else shortAt data 12 ≠ Ethernet.typeRarp

theorem load_of11 {ret : Match} (h : loadOFMatchFromPacket .of11 data inputPort l2only = .ok ret) :
    ret = {} := by
  obtain ⟨b, h⟩ := decode_over_ok (Nat.zero_le _) h
  obtain ⟨_, _, _, h⟩ := of_bind_ok h
  obtain ⟨_, _, _, h⟩ := of_bind_ok h
  obtain ⟨_, _, _, h⟩ := of_bind_ok h
  obtain ⟨_, _, _, h⟩ := of_bind_ok h
  cases l2only with
  | true =>
    cases h
    rfl
  | false =>
    obtain ⟨_, _, _, h⟩ := of_bind_ok h
    obtain ⟨_, _, _, h⟩ := of_bind_ok h
    cases h
    rfl

end Iff

/-- For a frame that is decoded, the match is that of the decoded frame if and only if the frame is read
right. -/
theorem load_eq_iff {data : List UInt8} {eth : Ethernet}
    (h : Ethernet.deserialize data 0 data.length = .ok (some eth)) (version : OFVersion)
    (inputPort : OFPort) (l2only : Bool) : loadOFMatchFromPacket version data inputPort l2only =
      .ok (ofFrame version inputPort l2only eth) ↔ Read version l2only data := by
  have heth := Ethernet.deserialize_at h
  unfold Read
  by_cases hversion : version = .of11
  · subst hversion
    refine ⟨fun h => ?_, fun h => absurd rfl h.1⟩
    have hport := congrArg Match.inPort (load_of11 h)
    rw [head_ofFrame.1] at hport
    cases hport
  · rw [and_iff_right hversion]
    by_cases hvlan : shortAt data 12 = Ethernet.typeVlan
    · rw [if_pos hvlan]
      exact load_tagged_iff heth hvlan hversion
    · rw [if_neg hvlan]
      cases l2only with
      | true =>
        have hsize := heth.size_le
        rw [Ethernet.headerSize, if_neg hvlan] at hsize
        have hload : loadOFMatchFromPacket version data inputPort true =
            .ok ((head data inputPort).build version) := load_untagged hsize hvlan
        rw [hload, build_head hversion, ofFrame_eq, if_pos rfl, decodedHead_untagged heth hvlan]
        exact ⟨nofun, fun _ => rfl⟩
      | false =>
        rw [forall_prop_of_true rfl]
        by_cases hipv4 : shortAt data 12 = Ethernet.typeIPv4
        · rw [if_pos hipv4]
          exact load_ipv4_iff heth hipv4 hversion
        · rw [if_neg hipv4]
          by_cases harp : shortAt data 12 = Ethernet.typeArp
          · rw [if_pos harp]
            exact load_arp_iff heth harp hversion
          · rw [if_neg harp]
            exact load_other_iff heth hvlan hipv4 harp hversion

/-- The packet of an echo reply. -/
def echoReply : List UInt8 :=
  [0x45, 0, 0, 24, 0, 0, 0, 0, 64, 1, 0x66, 0xdf, 10, 0, 0, 1, 10, 0, 0, 2, 0, 0, 0xff, 0xff]

def untaggedEcho : List UInt8 := [0, 0, 0, 0, 0, 1, 0, 0, 0, 0, 0, 2, 8, 0] ++ echoReply

/-- The same frame in the VLAN 5. -/
def taggedEcho : List UInt8 := [0, 0, 0, 0, 0, 1, 0, 0, 0, 0, 0, 2, 0x81, 0, 0, 5, 8, 0] ++ echoReply

def decodedEcho (vlanID : UInt16) : Ethernet where
  destinationMACAddress := ⟨[0, 0, 0, 0, 0, 1], rfl⟩
  sourceMACAddress := ⟨[0, 0, 0, 0, 0, 2], rfl⟩
  priorityCode := 0
  vlanID
  etherType := Ethernet.typeIPv4
  payload := some (.ipv4 {
    version := 4
    headerLength := 5
    diffServ := 0
    totalLength := 24
    identification := 0
    flags := 0
    fragmentOffset := 0
    ttl := 64
    protocol := IPv4.protocolIcmp
    checksum := 0x66df
    sourceAddress := 0x0a000001
    destinationAddress := 0x0a000002
    options := none
    isTruncated := false
    payload := some (.icmp ⟨0, 0, 0xffff, some ⟨[]⟩⟩) })

theorem load_eq_untaggedEcho : loadOFMatchFromPacket .of13 untaggedEcho 1 false =
    .ok (ofFrame .of13 1 false (decodedEcho Ethernet.vlanUntagged)) := by
  have hdecode : Ethernet.deserialize untaggedEcho 0 untaggedEcho.length =
      .ok (some (decodedEcho Ethernet.vlanUntagged)) := rfl
  refine (load_eq_iff hdecode .of13 1 false).2 ⟨by decide, fun _ => ?_⟩
  have hprotocol : ¬(byteAt untaggedEcho 23 = 0x06 ∨ byteAt untaggedEcho 23 = 0x11) := by decide
  exact fun h => absurd h hprotocol

/-- The type of a frame with a tag is that of the tag. -/
theorem not_load_eq : ¬∀ (version : OFVersion) (inputPort : OFPort) (l2only : Bool) (data : List UInt8)
    (eth : Ethernet), Ethernet.deserialize data 0 data.length = .ok (some eth) →
      loadOFMatchFromPacket version data inputPort l2only = .ok (ofFrame version inputPort l2only eth) := by
  intro h
  have hload := h .of13 1 false taggedEcho (decodedEcho 5) rfl
  have htype : some (0x8100 : UInt16) = some 0x0800 :=
    congrArg (fun r : Except Stop Match => r.toOption.bind Match.ethType) hload
  cases htype

end Match

end Torpedo
