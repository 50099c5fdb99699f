import Torpedo.Packet.Whole
import Torpedo.Util.Codec

/-!
# Where the decoders read

The fields of a decoded packet are bytes of the array at fixed places behind its first byte.
-/

namespace Torpedo

open Decoder

variable {data : List UInt8} {m : ℕ}

theorem TCP.deserialize_at {tcp : TCP} (hm : m ≤ data.length)
    (h : TCP.deserialize data m (data.length - m) = .ok tcp) :
    m + 4 ≤ data.length ∧ tcp.sourcePort = shortAt data m ∧ tcp.destinationPort = shortAt data (m + 2) := by
  obtain ⟨b, h⟩ := decode_over_ok hm h
  obtain ⟨hm, h⟩ := reads_getShort.run_over_ok hm h
  obtain ⟨hm, h⟩ := reads_getShort.run_over_ok hm h
  obtain ⟨_, _, _, h⟩ := of_bind_ok h
  obtain ⟨_, _, _, h⟩ := of_bind_ok h
  obtain ⟨_, _, _, h⟩ := of_bind_ok h
  obtain ⟨_, _, _, h⟩ := of_bind_ok h
  obtain ⟨_, _, _, h⟩ := of_bind_ok h
  obtain ⟨_, _, _, h⟩ := of_bind_ok h
  obtain ⟨_, _, _, h⟩ := of_bind_ok h
  obtain ⟨_, _, _, h⟩ := of_bind_ok h
  cases h
  simp only [shortAt_drop, Nat.add_zero]
  exact ⟨hm, trivial, trivial⟩

theorem UDP.deserialize_at {udp : UDP} (hm : m ≤ data.length)
    (h : UDP.deserialize data m (data.length - m) = .ok udp) :
    m + 4 ≤ data.length ∧ udp.sourcePort = shortAt data m ∧ udp.destinationPort = shortAt data (m + 2) := by
  obtain ⟨b, h⟩ := decode_over_ok hm h
  obtain ⟨hm, h⟩ := reads_getShort.run_over_ok hm h
  obtain ⟨hm, h⟩ := reads_getShort.run_over_ok hm h
  obtain ⟨_, _, _, h⟩ := of_bind_ok h
  obtain ⟨_, _, _, h⟩ := of_bind_ok h
  obtain ⟨_, _, _, h⟩ := of_bind_ok h
  cases h
  simp only [shortAt_drop, Nat.add_zero]
  exact ⟨hm, trivial, trivial⟩

/-- Where a header of IPv4 ends. -/
def IPv4.headerSize (headerLength : UInt8) : ℕ := 20 + (headerLength.toNat - 5) * 4

/-- The fields of the packet are those of the bytes behind the position. -/
structure IPv4.At (data : List UInt8) (m : ℕ) (ip : IPv4) : Prop where
  headerLength : ip.headerLength = byteAt data m &&& 0xf
  diffServ : ip.diffServ = byteAt data (m + 1)
  protocol : ip.protocol = byteAt data (m + 9)
  sourceAddress : ip.sourceAddress = intAt data (m + 12)
  destinationAddress : ip.destinationAddress = intAt data (m + 16)
  size_le : m + headerSize ip.headerLength ≤ data.length
  payload : ∃ payload, ip.payload = some payload ∧ deserializePayload ip.protocol data
    (m + headerSize ip.headerLength) (data.length - (m + headerSize ip.headerLength)) = .ok payload

theorem IPv4.deserialize_at {ip : IPv4} (hm : m ≤ data.length)
    (h : IPv4.deserialize data m (data.length - m) = .ok ip) : IPv4.At data m ip := by
  obtain ⟨b, h⟩ := decode_over_ok hm h
  obtain ⟨hm, h⟩ := reads_getByte.run_over_ok hm h
  obtain ⟨hm, h⟩ := reads_getByte.run_over_ok hm h
  obtain ⟨hm, h⟩ := reads_getShort.run_over_ok hm h
  obtain ⟨hm, h⟩ := reads_getShort.run_over_ok hm h
  obtain ⟨hm, h⟩ := reads_getShort.run_over_ok hm h
  obtain ⟨hm, h⟩ := reads_getByte.run_over_ok hm h
  obtain ⟨hm, h⟩ := reads_getByte.run_over_ok hm h
  obtain ⟨hm, h⟩ := reads_getShort.run_over_ok hm h
  obtain ⟨hm, h⟩ := reads_getInt.run_over_ok hm h
  obtain ⟨hm, h⟩ := reads_getInt.run_over_ok hm h
  obtain ⟨hm, h⟩ := (reads_getOptions _).run_over_ok hm h
  rw [rest_over hm] at h
  obtain ⟨payload, hpayload, h⟩ := of_bind_eq_ok h
  cases h
  have hend (n : ℕ) : m + 1 + 1 + 2 + 2 + 2 + 1 + 1 + 2 + 4 + 4 + n = m + (20 + n) := by omega
  rw [hend] at hm hpayload
  simp only [byteAt_drop, intAt_drop, Nat.add_assoc, Nat.add_zero] at hm hpayload ⊢
  exact ⟨rfl, rfl, rfl, rfl, rfl, hm, payload, rfl, hpayload⟩

/-- The fields of the packet are those of the bytes behind the position. -/
structure ARP.At (data : List UInt8) (m : ℕ) (arp : ARP) : Prop where
  protocolType : arp.protocolType = shortAt data (m + 2)
  hardwareAddressLength : arp.hardwareAddressLength = byteAt data (m + 4)
  protocolAddressLength : arp.protocolAddressLength = byteAt data (m + 5)
  opCode : arp.opCode = shortAt data (m + 6)
  senderProtocolAddress : arp.senderProtocolAddress =
    slice data (m + 8 + arp.hardwareAddressLength.toNat) arp.protocolAddressLength.toNat
  targetProtocolAddress : arp.targetProtocolAddress =
    slice data (m + 8 + 2 * arp.hardwareAddressLength.toNat + arp.protocolAddressLength.toNat)
      arp.protocolAddressLength.toNat
  size_le : m + 8 + 2 * arp.hardwareAddressLength.toNat + arp.protocolAddressLength.toNat +
    arp.protocolAddressLength.toNat ≤ data.length

theorem ARP.deserialize_at {arp : ARP} (hm : m ≤ data.length)
    (h : ARP.deserialize data m (data.length - m) = .ok arp) : ARP.At data m arp := by
  obtain ⟨b, h⟩ := decode_over_ok hm h
  obtain ⟨hm, h⟩ := reads_getShort.run_over_ok hm h
  obtain ⟨hm, h⟩ := reads_getShort.run_over_ok hm h
  obtain ⟨hm, h⟩ := reads_getByte.run_over_ok hm h
  obtain ⟨hm, h⟩ := reads_getByte.run_over_ok hm h
  obtain ⟨hm, h⟩ := reads_getShort.run_over_ok hm h
  obtain ⟨hm, h⟩ := (reads_getBytes _).run_over_ok hm h
  obtain ⟨hm, h⟩ := (reads_getBytes _).run_over_ok hm h
  obtain ⟨hm, h⟩ := (reads_getBytes _).run_over_ok hm h
  obtain ⟨hm, h⟩ := (reads_getBytes _).run_over_ok hm h
  cases h
  have hsize (p n : ℕ) : m + 2 + 2 + 1 + 1 + 2 + n + p + n = m + 8 + 2 * n + p := by omega
  rw [hsize] at hm
  simp only [hsize, shortAt_drop, byteAt_drop, Nat.add_zero] at hm ⊢
  exact ⟨rfl, rfl, rfl, rfl, rfl, rfl, hm⟩

/-- The tag of a frame, and the type of its payload. -/
def Ethernet.tagAt (data : List UInt8) : Tag :=
  if shortAt data 12 = typeVlan then
    ⟨(shortAt data 14 >>> 13).toUInt8, shortAt data 14 &&& 0xfff, shortAt data 16⟩
  else ⟨0, vlanUntagged, shortAt data 12⟩

/-- Where the header of a frame ends. -/
def Ethernet.headerSize (data : List UInt8) : ℕ := if shortAt data 12 = typeVlan then 18 else 14

theorem Ethernet.getTag_over_ok {β : Type} {k : Tag → Decoder β} {r : β × ByteBuffer}
    (hm : 12 ≤ data.length) (h : (getTag >>= k) (.overData data 12) = .ok r) :
    headerSize data ≤ data.length ∧ k (tagAt data) (.overData data (headerSize data)) = .ok r := by
  unfold getTag at h
  rw [bind_assoc] at h
  obtain ⟨hm, h⟩ := reads_getShort.run_over_ok hm h
  unfold headerSize tagAt
  simp only [shortAt_drop] at h
  by_cases htag : shortAt data 12 = typeVlan
  · simp only [Nat.add_zero, if_pos htag, bind_assoc] at h ⊢
    obtain ⟨hm, h⟩ := reads_getShort.run_over_ok hm h
    obtain ⟨hm, h⟩ := reads_getShort.run_over_ok hm h
    simp only [shortAt_drop] at h
    exact ⟨hm, h⟩
  · simp only [Nat.add_zero, if_neg htag] at h ⊢
    exact ⟨hm, h⟩

/-- The fields of the frame are those of its bytes. -/
structure Ethernet.At (data : List UInt8) (eth : Ethernet) : Prop where
  destination : eth.destinationMACAddress.address = slice data 0 6
  source : eth.sourceMACAddress.address = slice data 6 6
  priorityCode : eth.priorityCode = (tagAt data).priorityCode
  vlanID : eth.vlanID = (tagAt data).vlanID
  etherType : eth.etherType = (tagAt data).etherType
  size_le : headerSize data ≤ data.length
  payload : ∃ payload, eth.payload = some payload ∧
    deserializePayload eth.etherType data (headerSize data) (data.length - headerSize data) = .ok payload

theorem MACAddress.address_new {address : List UInt8} (h : address.length = 6) :
    (MACAddress.new address).address = address := by
  show (address ++ List.replicate 6 0).take 6 = address
  rw [← h, List.take_left]

theorem Ethernet.deserialize_at {eth : Ethernet} (h : deserialize data 0 data.length = .ok (some eth)) :
    At data eth := by
  unfold deserialize at h
  by_cases hlength : data.length = 0
  · rw [if_pos hlength] at h
    cases h
  rw [if_neg hlength] at h
  obtain ⟨b, h⟩ := decode_over_ok (Nat.zero_le _) h
  obtain ⟨hm, h⟩ := reads_getMACAddress.run_over_ok (Nat.zero_le _) h
  obtain ⟨hm, h⟩ := reads_getMACAddress.run_over_ok hm h
  obtain ⟨hsize, h⟩ := getTag_over_ok hm h
  rw [rest_over hsize] at h
  obtain ⟨payload, hpayload, h⟩ := of_bind_eq_ok h
  cases h
  refine ⟨?_, ?_, rfl, rfl, rfl, hsize, payload, rfl, hpayload⟩
  · refine MACAddress.address_new ?_
    rw [List.length_take, List.length_drop]
    omega
  · refine MACAddress.address_new ?_
    rw [List.length_take, List.length_drop]
    omega

end Torpedo
