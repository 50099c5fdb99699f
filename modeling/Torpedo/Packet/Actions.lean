import Torpedo.LinkDiscovery.Link

/-!
# Actions

The actions of the messages that are sent to switches, as far as the modules make them: a packet is put out
at a port.
-/

namespace Torpedo

/-- `OFBufferId.NO_BUFFER`. -/
def noBuffer : UInt32 := 0xffffffff

structure OutputAction where
  port : OFPort
  maxLen : ℕ
deriving DecidableEq, Repr

/-- The actions of a flow: in a message of OpenFlow 1.0 themselves, and later in an instruction. -/
inductive FlowBody
  | actions (actions : List OutputAction)
  | applyActions (actions : List OutputAction)
deriving DecidableEq, Repr

namespace FlowBody

/-- The same actions, with the port that they send to. -/
def setPort (port : OFPort) : FlowBody → FlowBody
  | actions as => .actions (as.map fun a => { a with port })
  | applyActions as => .applyActions (as.map fun a => { a with port })

end FlowBody

/-- `OFPacketOut`. -/
structure PacketOut where
  bufferId : UInt32
  inPort : OFPort
  actions : List OutputAction
  data : Option (List UInt8)
deriving DecidableEq, Repr

end Torpedo
