import Torpedo.StaticEntryManager.Prerequisites

/-!
# Flow-mods of static flow entries

What a flow-mod of an entry is to say, and when `makeFlowMod` makes one that says it.
-/

namespace Torpedo

/-! ## What the fields are to say -/

/-- What the value of a match field is. -/
inductive FieldKind
  | number | mac | address
deriving DecidableEq, Repr

namespace MatchField

def name : MatchField → String
  | inPort => "in_port" | ethDst => "eth_dst" | ethSrc => "eth_src" | vlanVid => "vlan_vid" | vlanPcp => "vlan_pcp"
  | ethType => "eth_type" | ipProto => "ip_proto" | ipv4Src => "ipv4_src" | ipv4Dst => "ipv4_dst"
  | ipDscp => "ip_dscp" | ipEcn => "ip_ecn" | tcpSrc => "tcp_src" | tcpDst => "tcp_dst" | udpSrc => "udp_src"
  | udpDst => "udp_dst" | sctpSrc => "sctp_src" | sctpDst => "sctp_dst" | icmpv4Type => "icmpv4_type"
  | icmpv4Code => "icmpv4_code" | arpOp => "arp_op" | arpSpa => "arp_spa" | arpTpa => "arp_tpa"
  | arpSha => "arp_sha" | arpTha => "arp_tha" | mplsLabel => "mpls_label" | mplsTc => "mpls_tc"

/-- The bits of the field. -/
def bits : MatchField → ℕ
  | inPort => 32
  | ethDst | ethSrc | arpSha | arpTha => 48
  | vlanVid => 12
  | vlanPcp | mplsTc => 3
  | ethType | arpOp => 16
  | ipProto | icmpv4Type | icmpv4Code => 8
  | ipv4Src | ipv4Dst | arpSpa | arpTpa => 32
  | ipDscp => 6
  | ipEcn => 2
  | tcpSrc | tcpDst | udpSrc | udpDst | sctpSrc | sctpDst => 16
  | mplsLabel => 20

def kind : MatchField → FieldKind
  | ethDst | ethSrc | arpSha | arpTha => .mac
  | ipv4Src | ipv4Dst | arpSpa | arpTpa => .address
  | _ => .number

/-- Where the addresses of IP are addresses of ARP. -/
def target (arp : Bool) : MatchField → MatchField
  | ipv4Src => if arp then arpSpa else ipv4Src
  | ipv4Dst => if arp then arpTpa else ipv4Dst
  | field => field

end MatchField

/-- The numbers of a flow-mod beside its match. -/
inductive Setting
  | tableId | idleTimeout | hardTimeout | priority
deriving DecidableEq, Repr

namespace Setting

def name : Setting → String
  | tableId => "table_id" | idleTimeout => "idle_timeout" | hardTimeout => "hard_timeout" | priority => "priority"

def bits : Setting → ℕ
  | tableId => 8
  | _ => 16

end Setting

def StaticFlowEntry.FlowMod.get {ι : Type} (flowmod : FlowMod ι) : Setting → Option ℤ
  | .tableId => flowmod.tableId
  | .idleTimeout => some flowmod.idleTimeout
  | .hardTimeout => some flowmod.hardTimeout
  | .priority => some flowmod.priority

/-- The text of a value that is a string or a number. -/
def Value.spelling : Value → Option String
  | string s => some s
  | number text => some text
  | _ => none

namespace OFFactory

variable {ι : Type} (fac : OFFactory ι)

/-- The number that a value spells. -/
def numberOf (field : MatchField) (v : Value) : Option ℤ := do
  let s ← v.spelling
  match field with
  | .ethType => fac.characters.parse 16 (.ofList (StaticFlowEntry.removeHexMarks s.toList))
  | .ipProto =>
    if ['0', 'x'] <+: s.toList then
      fac.characters.parse 16 (.ofList (StaticFlowEntry.removeHexMarks s.toList))
    else fac.characters.parse 10 s
  | _ => fac.characters.parse 10 s

/-- The constraint of an address or a prefix. A prefix of length 0 is none. -/
def addressOf (text : List Char) : Option (Option Constraint) :=
  if '/' ∈ text then
    match text.splitOn '/' with
    | first :: second :: _ => do
      let address ← fac.ipv4Address (.ofList first)
      let length ← fac.characters.parse 10 (.ofList second)
      if 0 ≤ length ∧ length ≤ 32 then
        some (if length = 0 then none else some ⟨address, if length = 32 then none else some length⟩)
      else none
    | _ => none
  else do
    let address ← fac.ipv4Address (.ofList text)
    some (some ⟨address, none⟩)

/-- The constraint that a value says, if it says one. -/
def constraintOf (field : MatchField) (v : Value) : Option (Option Constraint) :=
  match field.kind with
  | .number => (fac.numberOf field v).map fun n => some ⟨n, none⟩
  | .mac => do
    let s ← v.spelling
    let address ← fac.macAddress s
    some (some ⟨address, none⟩)
  | .address => fac.addressOf v.toText.toList

end OFFactory

namespace StaticFlowEntry

variable {ι : Type} (fac : OFFactory ι) (entry : Entry)

/-- The field has this value, which is not null. -/
def Has (field : String) (v : Value) : Prop := entry.get field = some v ∧ v ≠ .null

/-- The ether type is that of ARP. -/
def entryIsArp : Bool := (entry.get "eth_type").bind (fac.numberOf .ethType) = some 0x0806

/-- The slot of a field of the entry. -/
def slotOf (field : MatchField) : Option MatchField := fac.slot (field.target (entryIsArp fac entry))

/-- What the code takes of entries whose values are in range. -/
structure Taken : Prop where
  names : ∀ name ∈ ["name", "switch"], ∃ v, entry.get name = some v ∧ (v = .null ∨ ∃ s, v = .string s)
  active : ∀ v, Has entry "active" v → ∃ s, v = .string s ∧ toLowerCase s = "true"
  instructions : ∀ v, Has entry "instructions" v → ∃ instructions, fac.makeInstructions v = .ok instructions
  /-- The actions are left to the instructions. -/
  actions : ¬Given entry "actions"
  /-- A number of a setting is a string, and has a sign bit to spare. -/
  setting : ∀ (setting : Setting) v, Has entry setting.name v →
    ∃ s n, v = .string s ∧ fac.characters.parse 10 s = some n ∧ n < 2 ^ (setting.bits - 1)
  table : Given entry "table_id" → fac.hasTableId
  mplsTc : ¬Given entry "mpls_tc"
  string : ∀ (field : MatchField) v, field.kind ≠ .address → Has entry field.name v → ∃ s, v = .string s
  inPort : ∀ v n, Has entry "in_port" v → fac.numberOf .inPort v = some n → n < 2 ^ 31
  /-- The library has a value for the number, and the version has the field. -/
  ofNumber : ∀ (field : MatchField) v n, field.kind = .number → Has entry field.name v →
    fac.numberOf field v = some n → fac.ofNumber field n ≠ none
  supported : ∀ field : MatchField, Given entry field.name → slotOf fac entry field ≠ none
  openPrefix : ∀ (field : MatchField) v, field.kind = .address → Has entry field.name v →
    fac.constraintOf field v = some none → fac.opensPrefix
  /-- Fields that are kept in the same place say the same. -/
  agree : ∀ (field field' : MatchField) v v', Has entry field.name v → Has entry field'.name v' →
    slotOf fac entry field = slotOf fac entry field' → fac.constraintOf field v = fac.constraintOf field' v'

/-! ## The reading of a field -/

/-- What the code reads of the text of an address. -/
def readAddress (text : List Char) : Except EntryFailure (Option Constraint) :=
  if '/' ∈ text then
    match text.splitOn '/' with
    | first :: second :: _ => do
      let address ← orRuntime (fac.ipv4Address (.ofList first))
      let length ← valueOf fac 10 32 (some (.ofList second))
      if 0 ≤ length ∧ length ≤ 32 then
        if length = 0 then if fac.opensPrefix then return none else throw .runtime
        else return some ⟨address, if length = 32 then none else some length⟩
      else throw .runtime
    | _ => throw .runtime
  else do
    let address ← orRuntime (fac.ipv4Address (.ofList text))
    return some ⟨address, none⟩

variable {fac entry}

/-- The keys that are left to the match. -/
def isMatchKey (key : String) : Bool :=
  key ∉ ["name", "switch", "active", "table_id", "idle_timeout", "hard_timeout", "priority", "instructions"]

/-- The fields of the library. -/
def matchFields : List MatchField :=
  [.inPort, .ethDst, .ethSrc, .vlanVid, .vlanPcp, .ethType, .ipProto, .ipv4Src, .ipv4Dst, .ipDscp, .ipEcn,
    .tcpSrc, .tcpDst, .udpSrc, .udpDst, .sctpSrc, .sctpDst, .icmpv4Type, .icmpv4Code,
    .arpOp, .arpSpa, .arpTpa, .arpSha, .arpTha, .mplsLabel, .mplsTc]

variable {v : Value} {c : Option Constraint}

/-- What has to be so of a value beside its range. -/
structure Readable (fac : OFFactory ι) (field : MatchField) (v : Value) : Prop where
  string : field.kind ≠ .address → ∃ s, v = .string s
  inPort : field = .inPort → ∀ n, fac.numberOf .inPort v = some n → n < 2 ^ 31
  ofNumber : field.kind = .number → ∀ n, fac.numberOf field v = some n → fac.ofNumber field n ≠ none
  openPrefix : field.kind = .address → fac.constraintOf field v = some none → fac.opensPrefix

theorem Has.given {name : String} (h : Has entry name v) : Given entry name := ⟨v, h⟩

end StaticFlowEntry

end Torpedo
