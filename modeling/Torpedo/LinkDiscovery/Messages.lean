import Torpedo.LinkDiscovery.Link
import Torpedo.Packet.Lldp

/-!
# Discovery messages

The frame that is sent out of a port names the switch and the port in TLVs, and the switch at the other
end of the link hands it to the controller. The port is written as a signed short, and read as one.
-/

namespace Torpedo

open Decoder

/-! ## Port numbers -/

namespace OFPort

/-- `OFPort.MAX`, the largest number of a physical port. -/
def max : OFPort := -256

/-- `OFPort.CONTROLLER`. -/
def controller : OFPort := -3

/-- `OFPort.LOCAL`. -/
def local' : OFPort := -2

/-- The ports with a name: `MAX`, and from `IN_PORT` to `ANY`. -/
def named : List OFPort := [max, -8, -7, -6, -5, -4, controller, local', -1]

def of (portNumber : Int32) : Except Stop OFPort :=
  if portNumber ∈ named then .ok portNumber
  else if portNumber < 0 ∧ max < portNumber then .error .exception
  else .ok portNumber

/-- The number of the port in OpenFlow 1.0. -/
def getShortPortNumber (port : OFPort) : Except Stop Int16 :=
  if port ∈ named then .ok port.toInt16
  else if 0xff00 ≤ port ∨ port < 0 then .error .exception
  else .ok port.toInt16

/-- The unsigned number is positive, and at most that of `MAX`. -/
def IsPhysical (port : OFPort) : Prop := 0 < port ∨ port ≤ max

end OFPort

/-! ## Sending -/

namespace Discovery

/-- `controllerTLV`. -/
def controllerTLV (id : Int64) : LLDPTLV := ⟨0x0c, 8, some (bytesOf 8 id.toUInt64.toNat)⟩

def directionType : UInt8 := 0x73

/-- `forwardTLV`. -/
def forwardTLV : LLDPTLV := ⟨directionType, 1, some [1]⟩

/-- `reverseTLV`. -/
def reverseTLV : LLDPTLV := ⟨directionType, 1, some [2]⟩

/-- The OUI of OpenFlow. -/
def oui : List UInt8 := [0x0, 0x26, 0xe1, 0x0]

def dpidTLV (dpid : Dpid) : LLDPTLV := ⟨127, 12, some (oui ++ bytesOf 8 dpid.toUInt64.toNat)⟩

/-- The last six bytes of the datapath id. -/
def chassisTLV (dpid : Dpid) : LLDPTLV := ⟨1, 7, some (4 :: (bytesOf 8 dpid.toUInt64.toNat).drop 2)⟩

def portTLV (number : Int16) : LLDPTLV := ⟨2, 3, some (2 :: bytesOf 2 number.toUInt16.toNat)⟩

def ttlTLV : LLDPTLV := ⟨3, 2, some [0, 0x78]⟩

def lldp (myId : Int64) (dpid : Dpid) (number : Int16) (isReverse : Bool) : LLDP where
  chassisId := some (chassisTLV dpid)
  portId := some (portTLV number)
  ttl := some ttlTLV
  optionalTLVList := [dpidTLV dpid, controllerTLV myId, if isReverse then reverseTLV else forwardTLV]

/-- `LLDP_STANDARD_DST_MAC_STRING`. -/
def standardDstMac : MACAddress := ⟨[0x01, 0x80, 0xc2, 0x00, 0x00, 0x0e], rfl⟩

/-- `LLDP_BSN_DST_MAC_STRING`. -/
def bsnDstMac : MACAddress := ⟨[0xff, 0xff, 0xff, 0xff, 0xff, 0xff], rfl⟩

def frame (lldp : LLDP) (hwAddr : MACAddress) (isStandard : Bool) : Ethernet where
  destinationMACAddress := if isStandard then standardDstMac else bsnDstMac
  sourceMACAddress := hwAddr
  priorityCode := 0
  vlanID := Ethernet.vlanUntagged
  etherType := if isStandard then Ethernet.typeLldp else Ethernet.typeBsn
  payload := some (if isStandard then .lldp lldp else .bsn (.ofLldp lldp))

/-- The data of the message, unless nothing is sent: out of a port that is not known, to the controller, or
to the switch itself. -/
def sendDiscoveryMessage (myId : Int64) (dpid : Dpid) (port : OFPort) (hwAddr : Option MACAddress)
    (isStandard isReverse : Bool) : Except Stop (Option (List UInt8)) :=
  if port = .controller ∨ port = .local' then .ok none
  else
    match hwAddr with
    | none => .ok none
    | some hwAddr => do
      let number ← port.getShortPortNumber
      let (data, _) ← (frame (lldp myId dpid number isReverse) hwAddr isStandard).serialize
      return some data

/-! ## Receiving -/

/-- What `handleLldp` reads from a packet. -/
structure Reading where
  remotePort : OFPort
  /-- The switch that the packet names. -/
  remoteDpid : Option Dpid
  otherId : Int64
  myLLDP : Bool
  isReverse : Option Bool
deriving DecidableEq, Repr

/-- The loop over the optional TLVs. -/
def readTLV (myId : Int64) (r : Reading) (tlv : LLDPTLV) : Except Stop Reading := do
  if tlv.type = 127 ∧ tlv.length = 12 ∧ (tlv.value.getD []).take 4 = oui then
    let value ← orThrow tlv.value
    let dpid ← decode getLong value 4 8
    return { r with remoteDpid := some dpid.toInt64 }
  else if tlv.type = 12 ∧ tlv.length = 8 then
    let value ← orThrow tlv.value
    let otherId ← decode getLong value 0 value.length
    return { r with otherId := otherId.toInt64, myLLDP := r.myLLDP || myId = otherId.toInt64 }
  else if tlv.type = directionType ∧ tlv.length = 1 then
    let value ← orThrow tlv.value
    let direction ← decode getByte value 0 value.length
    if direction = 1 then return { r with isReverse := some false }
    else if direction = 2 then return { r with isReverse := some true }
    else return r
  else return r

/-- A packet whose port is not two bytes with a subtype is not read. -/
def readLldp (myId : Int64) (lldp : LLDP) : Except Stop (Option Reading) :=
  match lldp.portId with
  | none => .ok none
  | some portId =>
    if portId.length ≠ 3 then .ok none
    else do
      let value ← orThrow portId.value
      let number ← decode getShort value 1 (value.length - 1)
      let remotePort ← OFPort.of number.toInt16.toInt32
      let r ← lldp.optionalTLVList.foldlM (readTLV myId) ⟨remotePort, none, 0, false, none⟩
      return some r

/-- The LLDP packet in a frame, with what `handlePacketIn` makes of its type. -/
def lldpOf (eth : Ethernet) : Option (LLDP × Bool) :=
  if eth.etherType = Ethernet.typeBsn then
    match eth.payload with
    | some (.bsn ⟨_, _, some (.lldp lldp)⟩) => some (lldp, false)
    | _ => none
  else if eth.etherType = Ethernet.typeLldp then
    match eth.payload with
    | some (.lldp lldp) => some (lldp, true)
    | _ => none
  else none

/-- The frame of a packet-in. -/
def handlePacketIn (myId : Int64) (data : List UInt8) : Except Stop (Option (Reading × Bool)) := do
  let eth ← Ethernet.deserialize data 0 data.length
  match eth.bind lldpOf with
  | none => return none
  | some (lldp, isStandard) => return (← readLldp myId lldp).map (·, isStandard)

/-! ## The frame -/

variable {myId : Int64} {dpid : Dpid} {port : OFPort} {number : Int16} {isStandard isReverse : Bool}
  {hwAddr : MACAddress}

/-- The TLVs of the packet that is sent. -/
def tlvs (myId : Int64) (dpid : Dpid) (number : Int16) (isReverse : Bool) : List LLDPTLV :=
  [chassisTLV dpid, portTLV number, ttlTLV, dpidTLV dpid, controllerTLV myId,
    if isReverse then reverseTLV else forwardTLV]

theorem proper_some {type : UInt8} {length : UInt16} {value : List UInt8}
    (h : type.toNat < 128 ∧ 0 < length.toNat ∧ length.toNat < 512)
    (hvalue : value.length = length.toNat) : LLDPTLV.Proper ⟨type, length, some value⟩ :=
  ⟨h.1, ⟨value, rfl, hvalue⟩, h.2.1, h.2.2⟩

theorem proper_direction (isReverse : Bool) :
    LLDPTLV.Proper (if isReverse then reverseTLV else forwardTLV) := by
  cases isReverse
  · exact proper_some (by decide) rfl
  · exact proper_some (by decide) rfl

theorem proper_tlvs (myId : Int64) (dpid : Dpid) (number : Int16) (isReverse : Bool) :
    ∀ tlv ∈ tlvs myId dpid number isReverse, tlv.Proper := by
  intro tlv hmem
  simp only [tlvs, List.mem_cons, List.not_mem_nil, or_false] at hmem
  obtain rfl | rfl | rfl | rfl | rfl | rfl := hmem
  · exact proper_some (by decide) (by simp [length_bytesOf])
  · exact proper_some (by decide) (by simp [length_bytesOf])
  · exact proper_some (by decide) rfl
  · exact proper_some (by decide) (by simp [oui, length_bytesOf])
  · exact proper_some (by decide) (by simp [length_bytesOf])
  · exact proper_direction isReverse

theorem proper_lldp :
    (lldp myId dpid number isReverse).Proper (chassisTLV dpid) (portTLV number) ttlTLV where
  eq := rfl
  chassisType := rfl
  portType := rfl
  ttlType := rfl
  proper := proper_tlvs myId dpid number isReverse
  optionalType := by
    intro tlv hmem
    simp only [lldp, List.mem_cons, List.not_mem_nil, or_false] at hmem
    obtain rfl | rfl | rfl := hmem
    · exact (by decide : 3 < (127 : UInt8).toNat)
    · exact (by decide : 3 < (0x0c : UInt8).toNat)
    · cases isReverse <;> decide

/-- The bytes of the packet. -/
def lldpBytes (myId : Int64) (dpid : Dpid) (number : Int16) (isReverse : Bool) : List UInt8 :=
  LLDP.bytesOfTLVs (tlvs myId dpid number isReverse)

theorem length_lldpBytes : (lldpBytes myId dpid number isReverse).length = 47 := by
  have hsum := LLDP.sum_tlvLength fun tlv hmem => (proper_tlvs myId dpid number isReverse tlv hmem).sized
  have hdirection : LLDP.tlvLength (if isReverse then reverseTLV else forwardTLV) = 3 := by
    cases isReverse <;> rfl
  unfold lldpBytes LLDP.bytesOfTLVs
  rw [List.length_append, length_bytesOf]
  simp only [tlvs, List.map_cons, List.map_nil, List.sum_cons, List.sum_nil, hdirection] at hsum
  rw [show LLDP.tlvLength (chassisTLV dpid) = 9 from rfl, show LLDP.tlvLength (portTLV number) = 5 from rfl,
    show LLDP.tlvLength ttlTLV = 4 from rfl, show LLDP.tlvLength (dpidTLV dpid) = 14 from rfl,
    show LLDP.tlvLength (controllerTLV myId) = 10 from rfl] at hsum
  unfold tlvs
  omega

/-- The bytes behind the header of the frame. -/
def payloadBytes (bs : List UInt8) (isStandard : Bool) : List UInt8 :=
  if isStandard then bs else BSN.bytesOfLldp bs

theorem serialize_frame {p : LLDP} {bs : List UInt8} (h : p.serialize = .ok bs)
    (hlt : 8 + bs.length < 32768) : (frame p hwAddr isStandard).serialize =
      .ok ((frame p hwAddr isStandard).headerBytes ++ payloadBytes bs isStandard,
        frame p hwAddr isStandard) := by
  cases isStandard with
  | true =>
    have hpayload : (frame p hwAddr true).serializePayload = .ok (some bs, frame p hwAddr true) :=
      congrArg (fun r : Except Stop (List UInt8) => r >>= fun s =>
        Except.ok (some s, ({ frame p hwAddr true with etherType := Ethernet.typeLldp } : Ethernet))) h
    exact Ethernet.serialize_eq hpayload
  | false =>
    have hpayload : (frame p hwAddr false).serializePayload =
        .ok (some (BSN.bytesOfLldp bs), frame p hwAddr false) :=
      congrArg (fun r : Except Stop (List UInt8 × BSN) => r >>= fun s =>
        Except.ok (some s.1, ({ frame p hwAddr false with
          payload := some (Ethernet.Payload.bsn s.2)
          etherType := Ethernet.typeBsn } : Ethernet))) (BSN.serialize_lldp h hlt)
    exact Ethernet.serialize_eq hpayload

/-- The frame is decoded if what is behind its header is. -/
theorem deserialize_untagged {eth : Ethernet} {payload : Ethernet.Payload} {body data : List UInt8}
    (htype : eth.etherType ≠ Ethernet.typeVlan) (hpriority : eth.priorityCode = 0)
    (hvlan : eth.vlanID = Ethernet.vlanUntagged) (hpayload : eth.payload = some payload)
    (hdata : data = eth.headerBytes ++ body)
    (h : Ethernet.deserializePayload eth.etherType data 14 body.length = .ok payload) :
    Ethernet.deserialize data 0 data.length = .ok (some eth) := by
  have hbs : data = eth.destinationMACAddress.address ++ (eth.sourceMACAddress.address ++
      (Ethernet.tagBytes none eth.etherType ++ body)) := by
    rw [hdata]
    unfold Ethernet.headerBytes Ethernet.tag
    rw [if_pos hvlan]
    simp [Ethernet.tagBytes]
  have hdecode : Ethernet.deserialize data ([] : List UInt8).length data.length = _ :=
    Ethernet.deserialize_eq (fun _ => htype) hbs rfl
  have hoffset : ([] : List UInt8).length + 12 + (Ethernet.tagBytes none eth.etherType).length = 14 := by
    simp [Ethernet.tagBytes, length_bytesOf]
  rw [hoffset, h] at hdecode
  refine hdecode.trans ?_
  obtain ⟨destination, source, priorityCode, vlanID, etherType, payload'⟩ := eth
  cases hpriority
  cases hvlan
  cases hpayload
  rfl

theorem deserialize_frame {p : LLDP} {chassisId portId ttl : LLDPTLV} {bs data : List UInt8}
    (hp : p.Proper chassisId portId ttl)
    (hbs : bs = LLDP.bytesOfTLVs (chassisId :: portId :: ttl :: p.optionalTLVList))
    (hdata : data = (frame p hwAddr isStandard).headerBytes ++ payloadBytes bs isStandard) :
    Ethernet.deserialize data 0 data.length = .ok (some (frame p hwAddr isStandard)) := by
  have hheader : (frame p hwAddr isStandard).headerBytes.length = 14 := Ethernet.length_headerBytes _
  cases isStandard with
  | true =>
    refine deserialize_untagged (show Ethernet.typeLldp ≠ Ethernet.typeVlan by decide) rfl rfl rfl hdata ?_
    rw [← hheader]
    exact congrArg (Ethernet.Payload.lldp <$> ·) (hp.deserialize_eq hbs hdata)
  | false =>
    have hfront : data = ((frame p hwAddr false).headerBytes ++ (bytesOf 4 BSN.magic.toNat ++
        (bytesOf 2 BSN.typeBddp.toNat ++ bytesOf 2 BSN.versionCurrent.toNat))) ++ bs := by
      rw [hdata]
      simp [payloadBytes, BSN.bytesOfLldp]
    have hlldp := hp.deserialize_eq hbs hfront
    have hlength : ((frame p hwAddr false).headerBytes ++ (bytesOf 4 BSN.magic.toNat ++
        (bytesOf 2 BSN.typeBddp.toNat ++ bytesOf 2 BSN.versionCurrent.toNat))).length =
          (frame p hwAddr false).headerBytes.length + 8 := by
      simp [length_bytesOf]
    rw [hlength] at hlldp
    refine deserialize_untagged (show Ethernet.typeBsn ≠ Ethernet.typeVlan by decide) rfl rfl rfl hdata ?_
    rw [← hheader]
    exact congrArg (Ethernet.Payload.bsn <$> ·) (BSN.deserialize_lldp rfl hdata hlldp)

/-! ## What is read -/

theorem decode_getLong (value : UInt64) (front : List UInt8) :
    decode getLong (front ++ bytesOf 8 value.toNat) front.length 8 = .ok value := by
  have hdecode := (parses_getLong value).decode_behind front
  rwa [length_bytesOf] at hdecode

variable (r : Reading)

theorem readTLV_dpid : readTLV myId r (dpidTLV dpid) = .ok { r with remoteDpid := some dpid } := by
  have hdpid : decode getLong (oui ++ bytesOf 8 dpid.toUInt64.toNat) 4 8 = .ok dpid.toUInt64 :=
    decode_getLong dpid.toUInt64 oui
  have houi : ((dpidTLV dpid).value.getD []).take 4 = oui :=
    List.take_left' rfl
  have hvalue : orThrow (dpidTLV dpid).value = .ok (oui ++ bytesOf 8 dpid.toUInt64.toNat) := rfl
  unfold readTLV
  rw [if_pos ⟨rfl, rfl, houi⟩, hvalue, ok_bind, hdpid]
  rfl

theorem readTLV_controller {id : Int64} : readTLV myId r (controllerTLV id) =
    .ok { r with otherId := id, myLLDP := r.myLLDP || myId = id } := by
  have hid : decode getLong (bytesOf 8 id.toUInt64.toNat) 0 (bytesOf 8 id.toUInt64.toNat).length =
      .ok id.toUInt64 := (parses_getLong id.toUInt64).decode_behind []
  have hvalue : orThrow (controllerTLV id).value = .ok (bytesOf 8 id.toUInt64.toNat) := rfl
  have hne : ¬(controllerTLV id).type = 127 := by
    show ¬(0x0c : UInt8) = 127
    decide
  unfold readTLV
  rw [if_neg fun h => hne h.1, if_pos ⟨rfl, rfl⟩, hvalue, ok_bind, hid]
  rfl

theorem readTLV_direction : readTLV myId r (if isReverse then reverseTLV else forwardTLV) =
    .ok { r with isReverse := some isReverse } := by
  cases isReverse <;> rfl

/-- The reading of the packet that is sent. -/
theorem readLldp_eq : readLldp myId (lldp myId dpid number isReverse) =
    (fun remotePort => some ⟨remotePort, some dpid, myId, true, some isReverse⟩) <$>
      OFPort.of number.toInt32 := by
  have hport : decode getShort (2 :: bytesOf 2 number.toUInt16.toNat) 1 2 = .ok number.toUInt16 := by
    have hdecode := (parses_getShort number.toUInt16).decode_behind [2]
    rwa [length_bytesOf] at hdecode
  have hlength : (2 :: bytesOf 2 number.toUInt16.toNat).length - 1 = 2 := rfl
  have hvalue : orThrow (portTLV number).value = .ok (2 :: bytesOf 2 number.toUInt16.toNat) := rfl
  have hthree : ¬(portTLV number).length ≠ 3 := not_not.2 rfl
  have hsome : (lldp myId dpid number isReverse).portId = some (portTLV number) := rfl
  unfold readLldp
  rw [hsome]
  dsimp only
  rw [if_neg hthree, hvalue, ok_bind, hlength, hport, ok_bind, Int16.toInt16_toUInt16]
  cases OFPort.of number.toInt32 with
  | error e => rfl
  | ok remotePort =>
    have htlvs : (lldp myId dpid number isReverse).optionalTLVList.foldlM (readTLV myId)
        ⟨remotePort, none, 0, false, none⟩ =
          .ok ⟨remotePort, some dpid, myId, true, some isReverse⟩ := by
      unfold lldp
      rw [List.foldlM_cons, readTLV_dpid, ok_bind, List.foldlM_cons, readTLV_controller, ok_bind,
        List.foldlM_cons, readTLV_direction, ok_bind, List.foldlM_nil]
      simp only [Bool.false_or, decide_true]
      rfl
    rw [ok_bind, htlvs]
    rfl

/-- The message that is sent, if the port has a short number. -/
theorem sendDiscoveryMessage_eq (hport : port ≠ .controller ∧ port ≠ .local') :
    sendDiscoveryMessage myId dpid port (some hwAddr) isStandard isReverse =
      (fun number => some ((frame (lldp myId dpid number isReverse) hwAddr isStandard).headerBytes ++
        payloadBytes (lldpBytes myId dpid number isReverse) isStandard)) <$> port.getShortPortNumber := by
  unfold sendDiscoveryMessage
  rw [if_neg (not_or.2 hport)]
  dsimp only
  cases port.getShortPortNumber with
  | error e => rfl
  | ok number =>
    have hlldp : (lldp myId dpid number isReverse).serialize = .ok (lldpBytes myId dpid number isReverse) :=
      proper_lldp.serialize_eq
    have hlt : 8 + (lldpBytes myId dpid number isReverse).length < 32768 := by
      rw [length_lldpBytes]
      decide
    rw [ok_bind, serialize_frame hlldp hlt]
    rfl

/-- What is made of a frame with such a packet. -/
theorem handlePacketIn_eq {data : List UInt8}
    (hdata : data = (frame (lldp myId dpid number isReverse) hwAddr isStandard).headerBytes ++
      payloadBytes (lldpBytes myId dpid number isReverse) isStandard) :
    handlePacketIn myId data =
      (fun remotePort => some (⟨remotePort, some dpid, myId, true, some isReverse⟩, isStandard)) <$>
        OFPort.of number.toInt32 := by
  have hdecode := deserialize_frame proper_lldp rfl hdata
  have hof : lldpOf (frame (lldp myId dpid number isReverse) hwAddr isStandard) =
      some (lldp myId dpid number isReverse, isStandard) := by
    cases isStandard <;> rfl
  unfold handlePacketIn
  rw [hdecode, ok_bind, Option.bind_some, hof]
  dsimp only
  rw [readLldp_eq]
  cases OFPort.of number.toInt32 <;> rfl

end Discovery

/-! ## Which ports come back -/

namespace OFPort

/-- The port of the short number that is sent. -/
def sent (port : OFPort) : Except Stop OFPort := do
  let number ← port.getShortPortNumber
  of number.toInt32

theorem toInt_toInt16 (port : OFPort) :
    port.toInt16.toInt32.toInt = (port.toInt + 32768) % 65536 - 32768 := by
  rw [Int16.toInt_toInt32, Int32.toInt_toInt16, Int.bmod_def]
  split_ifs <;> omega

theorem isPhysical_iff {port : OFPort} : port.IsPhysical ↔ 0 < port.toInt ∨ port.toInt ≤ -256 := by
  unfold IsPhysical max
  rw [Int32.lt_iff_toInt_lt, Int32.le_iff_toInt_le]
  rfl

theorem mem_named_iff {port : OFPort} (h : port.IsPhysical) : port ∈ named ↔ port = max := by
  have hne : ∀ n : OFPort, -256 < n.toInt → n.toInt ≤ 0 → port ≠ n := by
    rintro n hmax hzero rfl
    rw [isPhysical_iff] at h
    omega
  constructor
  · intro hmem
    simp only [named, List.mem_cons, List.not_mem_nil, or_false] at hmem
    obtain rfl | rfl | rfl | rfl | rfl | rfl | rfl | rfl | rfl := hmem
    · rfl
    all_goals exact absurd rfl (hne _ (by decide) (by decide))
  · rintro rfl
    exact List.mem_cons_self

/-- The ports below 0x8000, and `MAX`. -/
def Returns (port : OFPort) : Prop := 0 < port ∧ port < 0x8000 ∨ port = max

/-- The ports whose short number is negative. -/
def Negated (port : OFPort) : Prop := 0x8000 ≤ port ∧ port < 0xff00

theorem sent_returns {port : OFPort} (h : port.Returns) : port.sent = .ok port := by
  obtain ⟨hpos, hlt⟩ | rfl := h
  · rw [Int32.lt_iff_toInt_lt] at hpos hlt
    have hzero : (0 : Int32).toInt = 0 := rfl
    have hbound : (0x8000 : Int32).toInt = 32768 := rfl
    have hphysical : port.IsPhysical := isPhysical_iff.2 (by omega)
    have hnamed : port ∉ named := by
      rw [mem_named_iff hphysical]
      rintro rfl
      exact absurd hpos (by decide)
    have hshort : ¬((0xff00 : Int32) ≤ port ∨ port < 0) := by
      rw [Int32.le_iff_toInt_le, Int32.lt_iff_toInt_lt, hzero, show (0xff00 : Int32).toInt = 65280 from rfl]
      omega
    have hsame : port.toInt16.toInt32 = port := by
      rw [← Int32.toInt_inj, toInt_toInt16]
      omega
    have hof : ¬(port < 0 ∧ max < port) := by
      rw [Int32.lt_iff_toInt_lt, hzero]
      omega
    unfold sent getShortPortNumber
    rw [if_neg hnamed, if_neg hshort, ok_bind, hsame]
    unfold of
    rw [if_neg hnamed, if_neg hof]
  · rfl

/-- The port that is read is the number less 65536. -/
theorem sent_negated {port : OFPort} (h : port.Negated) :
    ∃ port', port.sent = .ok port' ∧ port'.toInt = port.toInt - 65536 := by
  obtain ⟨hle, hlt⟩ := h
  rw [Int32.le_iff_toInt_le, show (0x8000 : Int32).toInt = 32768 from rfl] at hle
  rw [Int32.lt_iff_toInt_lt, show (0xff00 : Int32).toInt = 65280 from rfl] at hlt
  have hzero : (0 : Int32).toInt = 0 := rfl
  have hmax : max.toInt = -256 := rfl
  have hnamed : port ∉ named := by
    rw [mem_named_iff (isPhysical_iff.2 (by omega))]
    rintro rfl
    omega
  have hshort : ¬((0xff00 : Int32) ≤ port ∨ port < 0) := by
    rw [Int32.le_iff_toInt_le, Int32.lt_iff_toInt_lt, hzero, show (0xff00 : Int32).toInt = 65280 from rfl]
    omega
  have hread : port.toInt16.toInt32.toInt = port.toInt - 65536 := by
    rw [toInt_toInt16]
    omega
  have hnamed' : port.toInt16.toInt32 ∉ named := by
    rw [mem_named_iff (isPhysical_iff.2 (by omega))]
    intro heq
    rw [heq] at hread
    omega
  have hof : ¬(port.toInt16.toInt32 < 0 ∧ max < port.toInt16.toInt32) := by
    rw [Int32.lt_iff_toInt_lt, Int32.lt_iff_toInt_lt]
    omega
  refine ⟨port.toInt16.toInt32, ?_, hread⟩
  unfold sent getShortPortNumber
  rw [if_neg hnamed, if_neg hshort, ok_bind]
  unfold of
  rw [if_neg hnamed', if_neg hof]

theorem getShortPortNumber_error {port : OFPort} (h : port.IsPhysical) (hreturns : ¬port.Returns)
    (hnegated : ¬port.Negated) : port.getShortPortNumber = .error .exception := by
  have hnamed : port ∉ named := fun hmem => hreturns (.inr ((mem_named_iff h).1 hmem))
  have hshort : (0xff00 : Int32) ≤ port ∨ port < 0 := by
    rw [isPhysical_iff] at h
    have hnot := mt Or.inl hreturns
    unfold Negated at hnegated
    rw [Int32.lt_iff_toInt_lt, Int32.lt_iff_toInt_lt, show (0 : Int32).toInt = 0 from rfl,
      show (0x8000 : Int32).toInt = 32768 from rfl] at hnot
    rw [Int32.le_iff_toInt_le, Int32.lt_iff_toInt_lt, show (0x8000 : Int32).toInt = 32768 from rfl,
      show (0xff00 : Int32).toInt = 65280 from rfl] at hnegated
    rw [Int32.le_iff_toInt_le, Int32.lt_iff_toInt_lt, show (0 : Int32).toInt = 0 from rfl,
      show (0xff00 : Int32).toInt = 65280 from rfl]
    omega
  unfold getShortPortNumber
  rw [if_neg hnamed, if_pos hshort]

end OFPort

/-! ## Both ends -/

namespace Discovery

variable {myId : Int64} {dpid : Dpid} {port : OFPort} {isStandard isReverse : Bool} {hwAddr : MACAddress}

/-- The message that is sent out of a port is read so, when it comes back in a packet-in. -/
def ReadAs (myId : Int64) (dpid : Dpid) (port : OFPort) (hwAddr : MACAddress) (isStandard isReverse : Bool)
    (r : Reading) : Prop :=
  ∃ data, sendDiscoveryMessage myId dpid port (some hwAddr) isStandard isReverse = .ok (some data) ∧
    handlePacketIn myId data = .ok (some (r, isStandard))

theorem readAs_iff (hport : port.IsPhysical) {r : Reading} :
    ReadAs myId dpid port hwAddr isStandard isReverse r ↔
      ∃ remotePort, port.sent = .ok remotePort ∧
        r = ⟨remotePort, some dpid, myId, true, some isReverse⟩ := by
  have hphysical := OFPort.isPhysical_iff.1 hport
  have hreserved : port ≠ .controller ∧ port ≠ .local' := by
    constructor
    · rintro rfl
      exact absurd hphysical (by decide)
    · rintro rfl
      exact absurd hphysical (by decide)
  unfold ReadAs OFPort.sent
  rw [sendDiscoveryMessage_eq hreserved]
  cases port.getShortPortNumber with
  | error e =>
    constructor
    · rintro ⟨data, hdata, -⟩
      exact nomatch hdata
    · rintro ⟨remotePort, hremote, -⟩
      exact nomatch hremote
  | ok number =>
    rw [ok_bind]
    constructor
    · rintro ⟨data, hdata, hread⟩
      have heq := handlePacketIn_eq (Option.some.inj (Except.ok.inj hdata)).symm
      rw [heq] at hread
      cases hof : OFPort.of number.toInt32 with
      | error e =>
        rw [hof] at hread
        exact nomatch hread
      | ok remotePort =>
        rw [hof] at hread
        cases hread
        exact ⟨remotePort, rfl, rfl⟩
    · rintro ⟨remotePort, hof, rfl⟩
      refine ⟨_, rfl, ?_⟩
      rw [handlePacketIn_eq rfl, hof]
      rfl

/-- The ports for which a message names its own end, and those for which it names another one. -/
theorem readAs_end_iff (myId : Int64) (dpid : Dpid) (port : OFPort) (hwAddr : MACAddress)
    (isStandard isReverse : Bool) (hport : port.IsPhysical) :
    ((∃ r, ReadAs myId dpid port hwAddr isStandard isReverse r ∧
        r.remoteDpid = some dpid ∧ r.remotePort = port) ↔ port.Returns) ∧
      ((∃ r, ReadAs myId dpid port hwAddr isStandard isReverse r ∧
        ¬(r.remoteDpid = some dpid ∧ r.remotePort = port)) ↔ port.Negated) := by
  simp only [readAs_iff hport]
  have hreturns : port.Returns → port.sent = .ok port := OFPort.sent_returns
  have hnegated : port.Negated → ∃ port', port.sent = .ok port' ∧ port' ≠ port := by
    intro h
    obtain ⟨port', hsent, hread⟩ := OFPort.sent_negated h
    refine ⟨port', hsent, ?_⟩
    rintro rfl
    omega
  have herror : ¬port.Returns → ¬port.Negated → ∀ port', port.sent ≠ .ok port' := by
    intro hnot hnot' port' hsent
    unfold OFPort.sent at hsent
    rw [OFPort.getShortPortNumber_error hport hnot hnot'] at hsent
    exact nomatch hsent
  constructor
  · constructor
    · rintro ⟨r, ⟨port', hsent, rfl⟩, -, hsame⟩
      obtain rfl : port' = port := hsame
      by_contra hnot
      by_cases hneg : port'.Negated
      · obtain ⟨port'', hsent', hne⟩ := hnegated hneg
        exact hne (Except.ok.inj (hsent'.symm.trans hsent))
      · exact herror hnot hneg _ hsent
    · intro h
      exact ⟨_, ⟨port, hreturns h, rfl⟩, rfl, rfl⟩
  · constructor
    · rintro ⟨r, ⟨port', hsent, rfl⟩, hwrong⟩
      by_contra hnot
      by_cases hret : port.Returns
      · exact hwrong ⟨rfl, Except.ok.inj (hsent.symm.trans (hreturns hret))⟩
      · exact herror hret hnot _ hsent
    · intro h
      obtain ⟨port', hsent, hne⟩ := hnegated h
      exact ⟨_, ⟨port', hsent, rfl⟩, fun hboth => hne hboth.2⟩

theorem readAs_end_one :
    ((∃ r, ReadAs 7 42 1 bsnDstMac true false r ∧ r.remoteDpid = some 42 ∧ r.remotePort = 1) ↔
        OFPort.Returns 1) ∧
      ((∃ r, ReadAs 7 42 1 bsnDstMac true false r ∧ ¬(r.remoteDpid = some 42 ∧ r.remotePort = 1)) ↔
        OFPort.Negated 1) :=
  readAs_end_iff 7 42 1 bsnDstMac true false (.inl (by decide))

/-- Port 0x8000 is read as port -0x8000. -/
theorem not_readAs_end : ¬∀ (myId : Int64) (dpid : Dpid) (port : OFPort) (hwAddr : MACAddress)
    (isStandard isReverse : Bool), port.IsPhysical →
      ∃ r, ReadAs myId dpid port hwAddr isStandard isReverse r ∧
        r.remoteDpid = some dpid ∧ r.remotePort = port := by
  intro hall
  have hphysical : OFPort.IsPhysical 0x8000 := .inl (by decide)
  obtain ⟨r, hread, -, hport⟩ := hall 7 42 0x8000 bsnDstMac true false hphysical
  obtain ⟨remotePort, hsent, rfl⟩ := (readAs_iff hphysical).1 hread
  have hremote : remotePort = -0x8000 := (Except.ok.inj hsent).symm
  exact absurd (hremote.symm.trans hport) (by decide)

end Discovery

end Torpedo
