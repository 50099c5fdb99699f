import Torpedo.StaticEntryManager.Manager
import Torpedo.Util.Numerals

/-!
# Static flow entries

`StaticFlowEntry` checks the fields of an entry, and makes a match and a flow-mod of them. The types of the
library for the values of match fields, and its builder of matches, are an `OFFactory`.
-/

namespace Torpedo

/-- What is thrown. A message of the run-time system is left out, also where it is a part of another one. -/
inductive EntryFailure
  | staticFlowEntry (message : String)
  | badData (names : Option (String × String))
  | classCast
  | runtime
deriving DecidableEq, Repr

/-! ## Match fields -/

inductive MatchField
  | inPort | ethDst | ethSrc | vlanVid | vlanPcp | ethType | ipProto | ipv4Src | ipv4Dst | ipDscp | ipEcn
  | tcpSrc | tcpDst | udpSrc | udpDst | sctpSrc | sctpDst | icmpv4Type | icmpv4Code
  | arpOp | arpSpa | arpTpa | arpSha | arpTha | mplsLabel | mplsTc
deriving DecidableEq, Repr

/-- The value of a match field, or the prefix of an address. -/
structure Constraint where
  value : ℤ
  prefixLength : Option ℤ
deriving DecidableEq, Repr

abbrev FlowMatch := HashMap MatchField Constraint

/-- The types of the library, and the builders of one version of OpenFlow. -/
structure OFFactory (ι : Type) where
  characters : Digits
  /-- `MacAddress.of`. -/
  macAddress : String → Option ℕ
  /-- `IPv4Address.of`. -/
  ipv4Address : String → Option ℕ
  /-- The number that the type of a field makes of a number. -/
  ofNumber : MatchField → ℤ → Option ℤ
  /-- Where the builder of matches keeps a field, if the version has it. -/
  slot : MatchField → Option MatchField
  /-- The builder takes a prefix of length 0 for no constraint. -/
  opensPrefix : Bool
  hasTableId : Bool
  /-- `makeInstructions`, or the actions of the instructions for a version that has no instructions. -/
  makeInstructions : Value → Except EntryFailure ι

/-- What is there, or an exception of the run-time system. -/
def orRuntime {α : Type} : Option α → Except EntryFailure α
  | some a => .ok a
  | none => .error .runtime

namespace OFFactory

variable {ι : Type} (fac : OFFactory ι)

/-- Set a field, or free it. -/
def set (field : MatchField) (c : Option Constraint) (builder : FlowMatch) : Except EntryFailure FlowMatch := do
  let slot ← orRuntime (fac.slot field)
  match c with
  | none => return HashMap.remove builder slot
  | some c => return builder.put slot c

def setExact (field : MatchField) (value : ℤ) (builder : FlowMatch) : Except EntryFailure FlowMatch :=
  fac.set field (some ⟨value, none⟩) builder

/-- A prefix of length 32 is the address. -/
def setMasked (field : MatchField) (value length : ℤ) (builder : FlowMatch) : Except EntryFailure FlowMatch :=
  if length = 0 then if fac.opensPrefix then fac.set field none builder else throw .runtime
  else fac.set field (some ⟨value, if length = 32 then none else some length⟩) builder

/-- `builder.get(MatchField.ETH_TYPE) == EthType.ARP`. -/
def isArp (builder : FlowMatch) : Bool := (fac.slot .ethType).bind builder.get = some ⟨0x0806, none⟩

/-! ### Version 1.3 -/

/-- Four numbers of a byte, with dots between. -/
def ipv4AddressOf (characters : Digits) (s : String) : Option ℕ := do
  let parts ← (s.toList.splitOn '.').mapM fun cs => characters.valueOf 10 32 (.ofList cs)
  if parts.length = 4 ∧ ∀ n ∈ parts, 0 ≤ n ∧ n ≤ 255 then some (parts.foldl (fun raw n => raw * 256 + n.toNat) 0)
  else none

/-- Six pairs of hexadecimal digits, with colons between. -/
def macAddressOf (characters : Digits) (s : String) : Option ℕ := do
  let pairs := s.toList.splitOn ':'
  let digits ← pairs.flatten.mapM fun c => (characters.digit c).filter (· < 16)
  if pairs.map List.length = List.replicate 6 2 then some (digits.foldl (· * 16 + ·) 0) else none

def ofNumber13 (field : MatchField) (n : ℤ) : Option ℤ :=
  match field with
  | .inPort => if -256 < n ∧ n < -8 then none else some n
  | .vlanVid => if 0 ≤ n ∧ n < 4096 then some n else none
  | .vlanPcp => if 0 ≤ n ∧ n < 8 then some n else none
  | .ethType => some n
  -- the constructor compares with the greatest number, 255, in the wrong way
  | .ipProto => if n < 255 then some n else none
  | .ipDscp => if 0 ≤ n ∧ n < 64 then some n else none
  | .ipEcn => if 0 ≤ n ∧ n < 4 then some n else none
  | .icmpv4Type | .icmpv4Code => if 0 ≤ n ∧ n < 256 then some n else none
  | .arpOp => if 0 ≤ n ∧ n < 65536 then some n else none
  | .mplsLabel => some (n % 2 ^ 32)
  | .mplsTc => some (n % 256)
  | .tcpSrc | .tcpDst | .udpSrc | .udpDst | .sctpSrc | .sctpDst =>
    if -1 ≤ n ∧ n < 65536 then some n else none
  | .ethDst | .ethSrc | .ipv4Src | .ipv4Dst | .arpSpa | .arpTpa | .arpSha | .arpTha => none

def of13 (characters : Digits) (makeInstructions : Value → Except EntryFailure ι) : OFFactory ι where
  characters := characters
  macAddress := macAddressOf characters
  ipv4Address := ipv4AddressOf characters
  ofNumber := ofNumber13
  slot := some
  opensPrefix := true
  hasTableId := true
  makeInstructions := makeInstructions

end OFFactory

/-! ## Fields of entries -/

namespace StaticFlowEntry

/-- `(String) entry.get(name)`. -/
def cast (entry : Entry) (name : String) : Except EntryFailure (Option String) :=
  match castString (entry.get name) with
  | none => throw .classCast
  | some s => return s

def toLowerCase (s : String) : String := .ofList (s.toList.map Char.toLower)

/-! ### Prerequisites -/

/-- A field that has to be spelled in one of some ways. -/
structure Spelling where
  field : String
  spellings : List String
  message : String

def checkSpelling (entries : Entry) (spelling : Spelling) : Except EntryFailure Unit := do
  let s ← cast entries spelling.field
  let s ← orRuntime s
  if s ∈ spelling.spellings then return ()
  else throw (.staticFlowEntry ("Check prerequisite: " ++ spelling.message))

/-- If one of the fields is there, so are those that it needs, in the right spellings. -/
def checkGroup (entries : Entry) (fields needed : List String) (message : String) (spellings : List Spelling) :
    Except EntryFailure Unit :=
  if fields.any (entries.containsKey ·) then
    if needed.all (entries.containsKey ·) then spellings.forM (checkSpelling entries)
    else throw (.staticFlowEntry ("Check prerequisite: " ++ message))
  else return ()

def ethTypesOfIp : List String := ["0x0800", "0800", "0x800", "800", "0x86dd", "86dd"]

def checkMatchPrerequisite (entries : Entry) : Except EntryFailure Unit := do
  checkGroup entries ["ipv4_src", "ipv4_dst"] ["eth_type"] "need eth_type field."
    [⟨"eth_type", ["0x0800", "0x800", "800", "0x0806", "0x800", "806"], "eth_type must be 0x0800 or 0x0806."⟩]
  checkGroup entries ["tcp_src", "tcp_dst"] ["eth_type", "ip_proto"] "need eth_type and ip_proto fields."
    [⟨"eth_type", ethTypesOfIp, "eth_type must be 0x0800 or 0x86dd."⟩, ⟨"ip_proto", ["6"], "ip_proto must be 6"⟩]
  checkGroup entries ["ip_proto"] ["eth_type"] "need eth_type field."
    [⟨"eth_type", ethTypesOfIp, "eth_type must be 0x0800 or 0x86dd."⟩]
  checkGroup entries ["mpls_label"] ["eth_type"] "need eth_type field."
    [⟨"eth_type", ["0x8847", "8847", "0x8848", "8848"], "eth_type must be 0x8847 or 0x8848."⟩]
  checkGroup entries ["vlan_pcp"] ["vlan_vid"] "need vlan_vid field." []

/-! ## Matches -/

/-- `replaceAll("0x", "")`. -/
def removeHexMarks : List Char → List Char
  | '0' :: 'x' :: cs => removeHexMarks cs
  | c :: cs => c :: removeHexMarks cs
  | [] => []

/-- How the value of a field is read. -/
inductive Reader
  /-- `valueOf` of a type of so many bits. -/
  | number (bits : ℕ)
  | mac
  | protocol
  /-- An address, which is another field if the ether type is that of ARP. -/
  | address (arpField : MatchField)
  /-- Read before the loop. -/
  | handled
deriving DecidableEq

/-- A case of the loop of `makeMatch`. -/
structure Row where
  key : String
  name : String
  field : MatchField
  reader : Reader
deriving DecidableEq

def rows : List Row :=
  [⟨"in_port", "in_port", .inPort, .number 32⟩,
    ⟨"eth_dst", "eth_dst", .ethDst, .mac⟩,
    ⟨"eth_src", "eth_src", .ethSrc, .mac⟩,
    ⟨"vlan_vid", "vlan_vid", .vlanVid, .number 32⟩,
    ⟨"vlan_pcp", "vlan_pcp", .vlanPcp, .number 8⟩,
    ⟨"eth_type", "eth_type", .ethType, .handled⟩,
    ⟨"ip_proto", "ip_proto", .ipProto, .protocol⟩,
    ⟨"ipv4_src", "ipv4_src", .ipv4Src, .address .arpSpa⟩,
    ⟨"ipv4_dst", "ipv4_dst", .ipv4Dst, .address .arpTpa⟩,
    ⟨"ip_dscp", "ip_dscp", .ipDscp, .number 8⟩,
    ⟨"ip_ecn", "ip_ecn", .ipEcn, .number 8⟩,
    ⟨"tcp_src", "tcp_src", .tcpSrc, .number 32⟩,
    ⟨"tcp_dst", "tcp_dst", .tcpDst, .number 32⟩,
    ⟨"udp_src", "udp_src", .udpSrc, .number 32⟩,
    ⟨"udp_dst", "udp_dst", .udpDst, .number 32⟩,
    ⟨"sctp_src", "sctp_src", .sctpSrc, .number 32⟩,
    ⟨"sctp_dst", "sctp_dst", .sctpDst, .number 32⟩,
    ⟨"icmpv4_type", "icmpv4_type", .icmpv4Type, .number 16⟩,
    ⟨"icmpv4_code", "icmpv4_code", .icmpv4Code, .number 16⟩,
    ⟨"arp_op", "arp_op", .arpOp, .number 32⟩,
    ⟨"arp_spa", "arp_spa", .arpSpa, .address .arpSpa⟩,
    ⟨"arp_tpa", "arp_tpa", .arpTpa, .address .arpTpa⟩,
    ⟨"arp_sha", "arp_sha", .arpSha, .mac⟩,
    ⟨"arp_tha", "arp_tha", .arpTha, .mac⟩,
    ⟨"mpls_label", "mpls_label", .mplsLabel, .number 64⟩,
    ⟨"mpsl_tc", "mpls_tc", .mplsTc, .number 16⟩]

variable {ι : Type} (fac : OFFactory ι) (entry : Entry)

/-- `valueOf` of a string, which may be null. -/
def valueOf (radix bits : ℕ) (s : Option String) : Except EntryFailure ℤ :=
  orRuntime (s.bind (fac.characters.valueOf radix bits))

def readEthType : Except EntryFailure ℤ := do
  let s ← orRuntime (← cast entry "eth_type")
  valueOf fac 16 32 (some (.ofList (removeHexMarks s.toList)))

def readProtocol : Except EntryFailure ℤ := do
  let s ← orRuntime (← cast entry "ip_proto")
  if ['0', 'x'] <+: s.toList then
    let value ← valueOf fac 16 32 (some (.ofList (removeHexMarks s.toList)))
    valueOf fac 10 16 (some value.repr)
  else valueOf fac 10 16 (some s)

/-- Set a field to the number that the type of the field makes of a number. -/
def setNumber (field : MatchField) (n : ℤ) (builder : FlowMatch) : Except EntryFailure FlowMatch := do
  let value ← orRuntime (fac.ofNumber field n)
  fac.setExact field value builder

/-- `entry.get(name).toString()`. -/
def objectToString (name : String) : Except EntryFailure String :=
  match entry.get name with
  | none => throw .runtime
  | some .null => throw .runtime
  | some value => return value.toText

/-- Set an address, or the prefix of an address. -/
def setAddress (name : String) (field : MatchField) (builder : FlowMatch) : Except EntryFailure FlowMatch := do
  let value ← objectToString entry name
  let text := value.toList
  if '/' ∈ text then
    match text.splitOn '/' with
    | first :: second :: _ =>
      let address ← orRuntime (fac.ipv4Address (.ofList first))
      let length ← valueOf fac 10 32 (some (.ofList second))
      if 0 ≤ length ∧ length ≤ 32 then fac.setMasked field address length builder else throw .runtime
    | _ => throw .runtime
  else
    let address ← orRuntime (fac.ipv4Address (.ofList text))
    fac.setExact field address builder

def setField (row : Row) (builder : FlowMatch) : Except EntryFailure FlowMatch :=
  match row.reader with
  | .number bits => do
    let n ← valueOf fac 10 bits (← cast entry row.name)
    setNumber fac row.field n builder
  | .mac => do
    let s ← orRuntime (← cast entry row.name)
    let address ← orRuntime (fac.macAddress s)
    fac.setExact row.field address builder
  | .protocol => do
    let n ← readProtocol fac entry
    setNumber fac row.field n builder
  | .address arpField => setAddress fac entry row.name (if fac.isArp builder then arpField else row.field) builder
  | .handled => return builder

/-- The body of the loop of `makeMatch`. -/
def setKey (builder : FlowMatch) (key : String) : Except EntryFailure FlowMatch :=
  match rows.find? (·.key = toLowerCase key) with
  | none => throw (.staticFlowEntry ("Unsupported field " ++ key))
  | some row => setField fac entry row builder

/-- What `makeMatch` does before the loop. -/
def setEthType (keys : List String) : Except EntryFailure FlowMatch :=
  if "eth_type" ∈ keys then do
    let n ← readEthType fac entry
    setNumber fac .ethType n ∅
  else return ∅

def makeMatch (keys : List String) : Except EntryFailure FlowMatch := do
  let builder ← setEthType fac entry keys
  keys.foldlM (setKey fac entry) builder

/-! ## Flow-mods -/

structure FlowMod (ι : Type) where
  command : FlowModCommand
  cookie : ℕ
  idleTimeout : ℤ
  hardTimeout : ℤ
  priority : ℤ
  /-- There is none in a version without tables. -/
  tableId : Option ℤ
  instructions : Option ι
  ofMatch : FlowMatch

/-- `STATIC_FLOW_ENTRY_COOKIE`. -/
def staticFlowEntryCookie : ℕ := 10 <<< 52

/-- `setDefaultFlowModFields`. A buffer, an output port and flags are never set. -/
def defaultFlowMod (command : FlowModCommand) : FlowMod ι where
  command := command
  cookie := staticFlowEntryCookie
  idleTimeout := 0
  hardTimeout := 0
  priority := 100
  tableId := if fac.hasTableId then some 0 else none
  instructions := none
  ofMatch := ∅

/-- The body of the loop of `makeFlowMod`, which gathers the keys of the match. There is no flow-mod of an entry
that is not active. -/
def readKey (flowmod : FlowMod ι) (matchkeys : List String) (key : String) :
    Except EntryFailure (Option (FlowMod ι × List String)) :=
  match entry.get key with
  | none => return some (flowmod, matchkeys)
  | some .null => return some (flowmod, matchkeys)
  | some _ =>
    if toLowerCase key = "switch" ∨ toLowerCase key = "name" then return some (flowmod, matchkeys)
    else if toLowerCase key = "active" then do
      let s ← cast entry "active"
      -- `Boolean.valueOf`
      if s.map toLowerCase = some "true" then return some (flowmod, matchkeys) else return none
    else if toLowerCase key = "table_id" then do
      let n ← valueOf fac 10 8 (← cast entry "table_id")
      -- `TableId.of`
      if n < 0 then throw .runtime
      else return some (if fac.hasTableId then { flowmod with tableId := some n } else flowmod, matchkeys)
    else if toLowerCase key = "idle_timeout" then do
      let n ← valueOf fac 10 16 (← cast entry "idle_timeout")
      return some ({ flowmod with idleTimeout := n }, matchkeys)
    else if toLowerCase key = "hard_timeout" then do
      let n ← valueOf fac 10 16 (← cast entry "hard_timeout")
      return some ({ flowmod with hardTimeout := n }, matchkeys)
    else if toLowerCase key = "priority" then do
      let n ← valueOf fac 10 16 (← cast entry "priority")
      return some ({ flowmod with priority := n }, matchkeys)
    else if toLowerCase key = "instructions" then do
      let instructions ← fac.makeInstructions ((entry.get "instructions").getD .null)
      return some ({ flowmod with instructions := some instructions }, matchkeys)
    else return some (flowmod, matchkeys ++ [key])

def readKeys : FlowMod ι → List String → List String → Except EntryFailure (Option (FlowMod ι × List String))
  | flowmod, matchkeys, [] => return some (flowmod, matchkeys)
  | flowmod, matchkeys, key :: keys => do
    match ← readKey fac entry flowmod matchkeys key with
    | none => return none
    | some (flowmod, matchkeys) => readKeys flowmod matchkeys keys

def makeFlowMod (command : FlowModCommand) : Except EntryFailure (Option (FlowMod ι)) :=
  if entry.containsKey "name" ∧ entry.containsKey "switch" then do
    let entryName ← cast entry "name"
    let switchName ← cast entry "switch"
    match ← readKeys fac entry (defaultFlowMod fac command) [] entry.keySet with
    | none => return none
    | some (flowmod, matchkeys) =>
      match makeMatch fac entry matchkeys with
      | .ok m => return some { flowmod with ofMatch := m }
      | .error .classCast => throw (.badData (do return (← entryName, ← switchName)))
      | .error e => throw e
  else return none

end StaticFlowEntry

end Torpedo
