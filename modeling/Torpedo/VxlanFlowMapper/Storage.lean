import Torpedo.Packet.Ethernet
import Torpedo.Util.Decimal
import Torpedo.Util.Iterators

/-!
# Flow mappings of VXLAN

`VxlanFlowMappingStorage` maps the headers of packets of a VXLAN to the headers of the packets in them, and
back, and tells the URLs that have been registered. What is told to a URL is recorded here, whether it is
delivered or not; which deliveries succeed is an input of an operation, which tells each URL at most once.
-/

namespace Torpedo

/-! ## Addresses -/

namespace MACAddress

def hexDigit (n : ℕ) : Char := if n < 10 then Char.ofNat (48 + n) else Char.ofNat (55 + n)

/-- `String.format("%02X", b & 0xFF)`. -/
def hexByte (b : UInt8) : String := String.ofList [hexDigit (b.toNat / 16), hexDigit (b.toNat % 16)]

def toString (a : MACAddress) : String := ":".intercalate (a.address.map hexByte)

end MACAddress

/-! ## Entries -/

/-- The keys that an entry of `OverlayFlowMappingEntry` may have. -/
structure OverlayFlowMappingEntry where
  outerSrcMac : String
  outerDstMac : String
  outerSrcIP : String
  outerDstIP : String
  outerSrcPort : String
  innerSrcMac : String
  innerDstMac : String
  innerEtherType : String
  innerSrcIP : Option String
  innerDstIP : Option String
  vnid : String
  v2OKey : String
deriving DecidableEq, Repr

/-- The key of the headers of a flow between the ends of a tunnel. -/
def o2VKey (srcMac dstMac srcIp dstIp srcPort : String) : String :=
  srcMac ++ " " ++ dstMac ++ " " ++ srcIp ++ " " ++ dstIp ++ " " ++ srcPort

def OverlayFlowMappingEntry.outerKey (entry : OverlayFlowMappingEntry) : String :=
  o2VKey entry.outerSrcMac entry.outerDstMac entry.outerSrcIP entry.outerDstIP entry.outerSrcPort

structure OuterPacketHeader where
  srcMac : String
  dstMac : String
  srcIp : String
  dstIp : String
  srcUdpPort : String
deriving DecidableEq, Repr

structure OrginalPacketHeader where
  srcVmMac : String
  dstVmMac : String
  srcVmIp : Option String
  dstVmIp : Option String
  vnid : String
  etherType : String
deriving DecidableEq, Repr

structure HeaderInfoPair where
  outer : OuterPacketHeader
  orginal : OrginalPacketHeader
deriving DecidableEq, Repr

/-- `P2VResponse` and `P2VRemovedResponse`. -/
inductive P2V
  | response (p2vMapList : List HeaderInfoPair)
  | removedResponse (p2vMapRemovedList : List HeaderInfoPair)
deriving DecidableEq, Repr

def OverlayFlowMappingEntry.headers (entry : OverlayFlowMappingEntry) : HeaderInfoPair where
  outer := {
    srcMac := entry.outerSrcMac
    dstMac := entry.outerDstMac
    srcIp := entry.outerSrcIP
    dstIp := entry.outerDstIP
    srcUdpPort := entry.outerSrcPort }
  orginal := {
    srcVmMac := entry.innerSrcMac
    dstVmMac := entry.innerDstMac
    srcVmIp := entry.innerSrcIP
    dstVmIp := entry.innerDstIP
    vnid := entry.vnid
    etherType := entry.innerEtherType }

/-- The message that a mapping is new, or that it is removed. -/
def OverlayFlowMappingEntry.notification (entry : OverlayFlowMappingEntry) (flowAddFlag : Bool) : P2V :=
  if flowAddFlag then .response [entry.headers] else .removedResponse [entry.headers]

/-! ## Storage -/

structure VxlanFlowMappingStorage (υ : Type) where
  o2v : HashMap String OverlayFlowMappingEntry
  v2o : HashMap String OverlayFlowMappingEntry
  notificationList : List υ
  /-- What has been sent, to which URL. -/
  sent : List (υ × P2V)

namespace VxlanFlowMappingStorage

variable {υ : Type}

def initial : VxlanFlowMappingStorage υ := ⟨∅, ∅, [], []⟩

variable [DecidableEq υ] (order : HashOrder) (delivers : υ → Bool)

/-- `notificationList.add`, of the REST call `register`. -/
def register (url : υ) (s : VxlanFlowMappingStorage υ) : VxlanFlowMappingStorage υ :=
  { s with notificationList := setAdd s.notificationList url }

/-- `notificationList.remove`, of the REST call `unregister`. -/
def unregister (url : υ) (s : VxlanFlowMappingStorage υ) : VxlanFlowMappingStorage υ :=
  { s with notificationList := setRemove s.notificationList url }

/-- A URL that the message is not delivered to is dropped. -/
def sendVxlanFlowNotification (url : υ) (entry : OverlayFlowMappingEntry) (flowAddFlag : Bool) :
    Method (VxlanFlowMappingStorage υ) Bool := do
  Method.modify fun s => { s with sent := s.sent ++ [(url, entry.notification flowAddFlag)] }
  if !delivers url then Method.modify (unregister url)
  return true

/-- The loop over the URLs. -/
def notifyAll (entry : OverlayFlowMappingEntry) (flowAddFlag : Bool) : Method (VxlanFlowMappingStorage υ) Unit := do
  let s ← Method.get
  Method.forEachIn notificationList s.notificationList
    (fun url => do let _ ← sendVxlanFlowNotification delivers url entry flowAddFlag)
    (order.iter s.notificationList)

/-- The entry that was there is returned. -/
def addO2VEnrty (o2VKey : String) (entry : OverlayFlowMappingEntry) :
    Method (VxlanFlowMappingStorage υ) (Option OverlayFlowMappingEntry) := do
  let s ← Method.get
  let ret := s.o2v.get o2VKey
  Method.modify fun s => { s with o2v := s.o2v.put o2VKey entry }
  if ret.isNone then Method.catchAll (notifyAll order delivers entry true)
  return ret

def addV2OEnrty (v2OKey : String) (entry : OverlayFlowMappingEntry) :
    Method (VxlanFlowMappingStorage υ) (Option OverlayFlowMappingEntry) := do
  let s ← Method.get
  let ret := s.v2o.get v2OKey
  Method.modify fun s => { s with v2o := s.v2o.put v2OKey entry }
  return ret

def removeO2VEnrty (o2VKey : String) :
    Method (VxlanFlowMappingStorage υ) (Option OverlayFlowMappingEntry) := do
  let s ← Method.get
  let ret := s.o2v.get o2VKey
  Method.modify fun s => { s with o2v := s.o2v.remove o2VKey }
  match ret with
  | none => pure ()
  | some entry => Method.catchAll (notifyAll order delivers entry false)
  return ret

def removeV2OEnrty (v2OKey : String) :
    Method (VxlanFlowMappingStorage υ) (Option OverlayFlowMappingEntry) := do
  let s ← Method.get
  let ret := s.v2o.get v2OKey
  Method.modify fun s => { s with v2o := s.v2o.remove v2OKey }
  return ret

def getV2OEnrty (s : VxlanFlowMappingStorage υ) (v2OKey : String) : Option OverlayFlowMappingEntry :=
  s.v2o.get v2OKey

def getO2VEnrty (s : VxlanFlowMappingStorage υ) (o2VKey : String) : Option OverlayFlowMappingEntry :=
  s.o2v.get o2VKey

/-- `Integer.parseInt` of the number of the network, or -1. -/
def getVnid (s : VxlanFlowMappingStorage υ) (srcMac dstMac srcIp dstIp : String) (srcUdpPort : ℤ) :
    Except Stop ℤ :=
  match s.o2v.get (o2VKey srcMac.toUpper dstMac.toUpper srcIp dstIp srcUdpPort.repr) with
  | none => .ok (-1)
  | some entry => orThrow (Decimal.parseNumber 32 entry.vnid)

end VxlanFlowMappingStorage

end Torpedo
