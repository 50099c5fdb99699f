import Torpedo.Firewall.Rule
import Torpedo.Packet.Frames
import Torpedo.Packet.Loading

/-!
# Decisions of a rule

When `matchesFlow` answers as the rule says (`FirewallRule.answers_matches_iff`). The types but ARP and IPv4
are never matched, the fields of IPv4 are looked at only if the rule names IPv4, the ports only if it also
names TCP or UDP, whether they are wildcards is not looked at, and a prefix without mask bits is compared.
-/

namespace Torpedo

namespace FirewallRule

/-! ## Answers -/

section Answers

variable {f g k : Flow Bool} {P Q : Prop}

/-- The answer is yes if and only if `P` holds. -/
def Answers (f : Flow Bool) (P : Prop) : Prop :=
  ∀ w, ∃ b w', f w = .ok (b, w') ∧ (b = true ↔ P)

theorem Answers.iff (h : Answers f P) : Answers f Q ↔ (P ↔ Q) := by
  refine ⟨fun h' => ?_, fun hPQ w => ?_⟩
  · obtain ⟨b, w, hb, hP⟩ := h {}
    obtain ⟨b', w', hb', hQ⟩ := h' {}
    rw [hb] at hb'
    cases hb'
    exact hP.symm.trans hQ
  · obtain ⟨b, w', hb, hP⟩ := h w
    exact ⟨b, w', hb, hP.trans hPQ⟩

theorem Answers.congr (h : Answers f P) (hPQ : P ↔ Q) : Answers f Q := h.iff.2 hPQ

theorem answers_true (hP : P) : Answers (return true) P :=
  fun w => ⟨true, w, rfl, fun _ => hP, fun _ => rfl⟩

theorem answers_false (hP : ¬P) : Answers (return false) P :=
  fun w => ⟨false, w, rfl, nofun, fun h => absurd h hP⟩

theorem Answers.ite {c : Prop} [Decidable c] (h : c → Answers f P) (h' : ¬c → Answers g P) :
    Answers (if c then f else g) P := by
  by_cases hc : c
  · rw [if_pos hc]
    exact h hc
  · rw [if_neg hc]
    exact h' hc

theorem Answers.update (r : FirewallRule) (change : UInt32 → UInt32) (h : Answers k P) :
    Answers (do r.update change; k) P := fun _ => h _

theorem Answers.clear (r : FirewallRule) (bits : UInt32) (h : Answers k P) :
    Answers (do r.clear bits; k) P := h.update r _

theorem Answers.setMaskbits (r : FirewallRule) (maskbits : Int32) (shift : UInt32) (h : Answers k P) :
    Answers (do r.setMaskbits maskbits shift; k) P := fun _ => h _

theorem Answers.lift {α : Type} {e : Except Stop α} {a : α} {k : α → Flow Bool} (he : e = .ok a)
    (h : Answers (k a) P) : Answers (do let x ← e; k x) P := by
  subst he
  exact h

/-- Go on if the first answer is yes. -/
theorem Answers.and (h : Answers f P) (h' : Answers g Q) :
    Answers (do if !(← f) then return false else g) (P ∧ Q) := by
  intro w
  obtain ⟨b, w', hb, hP⟩ := h w
  have hrun : (do if !(← f) then return false else g : Flow Bool) w =
      (if !b then return false else g : Flow Bool) w' := by
    show (f w >>= fun p => (if !p.1 then return false else g : Flow Bool) p.2) = _
    rw [hb]
    rfl
  rw [hrun]
  cases b with
  | false => exact ⟨false, w', rfl, nofun, fun h => absurd (hP.2 h.1) nofun⟩
  | true =>
    obtain ⟨b, w'', hb, hQ⟩ := h' w'
    exact ⟨b, w'', hb, hQ.trans (and_iff_right (hP.1 rfl)).symm⟩

end Answers

/-! ## What is tested -/

variable {r : FirewallRule} {switchDpid : Dpid} {inPort : OFPort} {packet : Ethernet} {ip : IPv4}

/-- The ports that are not 0 are those of the packet. -/
def PortsTested (r : FirewallRule) (ports : UInt16 × UInt16) : Prop :=
  (r.tpSrc = 0 ∨ r.tpSrc = ports.1.toInt16) ∧ (r.tpDst = 0 ∨ r.tpDst = ports.2.toInt16)

theorem answers_matchesPorts (ports : UInt16 × UInt16) :
    Answers (r.matchesPorts ports.1 ports.2) (r.PortsTested ports) := by
  unfold matchesPorts PortsTested
  refine .ite (fun h => answers_false fun h' => ?_) fun h => .clear _ _ ?_
  · exact h'.1.elim h.1 h.2
  · refine .ite (fun h' => answers_false fun h'' => ?_) fun h' => .clear _ _ (answers_true ⟨?_, ?_⟩)
    · exact h''.2.elim h'.1 h'.2
    · exact or_iff_not_imp_left.2 fun hne => not_not.1 fun hne' => h ⟨hne, hne'⟩
    · exact or_iff_not_imp_left.2 fun hne => not_not.1 fun hne' => h' ⟨hne, hne'⟩

/-- The payload of the packet has the class of its protocol. -/
def Typed (ip : IPv4) : Prop :=
  (ip.protocol = IPv4.protocolTcp → ∃ tcp, ip.payload = some (.tcp tcp)) ∧
  (ip.protocol = IPv4.protocolUdp → ∃ udp, ip.payload = some (.udp udp)) ∧
  (∀ ports, portsOf ip = some ports → ip.protocol = IPv4.protocolTcp ∨ ip.protocol = IPv4.protocolUdp)

/-- Of the protocols, ICMP, TCP and UDP are tested, and the ports for the latter two only. -/
def ProtocolTested (r : FirewallRule) (ip : IPv4) : Prop :=
  if r.nwProto = 0x6 then
    ip.protocol = IPv4.protocolTcp ∧ ∀ ports, portsOf ip = some ports → r.PortsTested ports
  else if r.nwProto = 0x11 then
    ip.protocol = IPv4.protocolUdp ∧ ∀ ports, portsOf ip = some ports → r.PortsTested ports
  else if r.nwProto = 0x1 then ip.protocol = IPv4.protocolIcmp
  else True

theorem answers_matchesProtocol (hip : Typed ip) :
    Answers (r.matchesProtocol (some ip)) (r.ProtocolTested ip) := by
  unfold matchesProtocol ProtocolTested
  by_cases htcp : r.nwProto = 0x6
  · rw [if_pos htcp, if_pos htcp]
    refine .lift rfl (.ite (fun h => answers_false fun h' => h h'.1) fun h => ?_)
    obtain ⟨tcp, htcp⟩ := hip.1 (not_not.1 h)
    refine .lift (congrArg asTCP htcp) (.clear _ _ ?_)
    refine (answers_matchesPorts (tcp.sourcePort, tcp.destinationPort)).congr ?_
    unfold portsOf
    rw [htcp]
    simp only [Option.some.injEq, forall_eq']
    exact (and_iff_right (not_not.1 h)).symm
  · rw [if_neg htcp, if_neg htcp]
    by_cases hudp : r.nwProto = 0x11
    · rw [if_pos hudp, if_pos hudp]
      refine .lift rfl (.ite (fun h => answers_false fun h' => h h'.1) fun h => ?_)
      obtain ⟨udp, hudp⟩ := hip.2.1 (not_not.1 h)
      refine .lift (congrArg asUDP hudp) (.clear _ _ ?_)
      refine (answers_matchesPorts (udp.sourcePort, udp.destinationPort)).congr ?_
      unfold portsOf
      rw [hudp]
      simp only [Option.some.injEq, forall_eq']
      exact (and_iff_right (not_not.1 h)).symm
    · rw [if_neg hudp, if_neg hudp]
      by_cases hicmp : r.nwProto = 0x1
      · rw [if_pos hicmp, if_pos hicmp]
        refine .lift rfl (.ite (fun h => answers_false h) fun h => ?_)
        exact .clear _ _ (answers_true (not_not.1 h))
      · rw [if_neg hicmp, if_neg hicmp]
        exact .clear _ _ (answers_true trivial)

/-- An address that is no wildcard is compared with the prefix. -/
def AddressTested (wildcard : Bool) (rulePrefix maskbits : Int32) (address : UInt32) : Prop :=
  wildcard = false → matchIPAddress rulePrefix maskbits address.toInt32 = true

def IPv4Tested (r : FirewallRule) (ip : IPv4) : Prop :=
  AddressTested r.wildcardNwSrc r.nwSrcPrefix r.nwSrcMaskbits ip.sourceAddress ∧
  AddressTested r.wildcardNwDst r.nwDstPrefix r.nwDstMaskbits ip.destinationAddress ∧
  (r.wildcardNwProto = false → r.ProtocolTested ip)

theorem answers_matchesAddress {wildcard : Bool} {rulePrefix maskbits : Int32} {address : IPv4 → UInt32} :
    Answers (do return ← matchesAddress wildcard rulePrefix maskbits (some ip) address)
      (AddressTested wildcard rulePrefix maskbits (address ip)) := by
  cases wildcard with
  | true => exact answers_true nofun
  | false =>
    intro w
    exact ⟨_, w, rfl, fun h _ => h, fun h => h rfl⟩

theorem answers_matchesIPv4 (hpacket : packet.payload = some (.ipv4 ip)) (hip : Typed ip) :
    Answers (r.matchesIPv4 packet) (r.IPv4Tested ip) := by
  unfold matchesIPv4 IPv4Tested
  refine .clear _ _ (.lift (congrArg asIPv4 hpacket) ?_)
  refine answers_matchesAddress.and (.setMaskbits _ _ _ ?_)
  refine answers_matchesAddress.and (.setMaskbits _ _ _ ?_)
  cases hproto : r.wildcardNwProto with
  | true => exact answers_true nofun
  | false => exact (answers_matchesProtocol hip).congr ⟨fun h _ => h, fun h => h rfl⟩

/-- The payload of a frame of IPv4 is a packet of IPv4, and that of the packet has the class of its
protocol. -/
def TypedFrame (packet : Ethernet) : Prop :=
  packet.etherType = Ethernet.typeIPv4 → ∃ ip, packet.payload = some (.ipv4 ip) ∧ Typed ip

theorem typed_of_at {data : List UInt8} {n : ℕ} (h : IPv4.At data n ip) : Typed ip := by
  obtain ⟨payload, hpayload, hdecode⟩ := h.payload
  have hof := IPv4.Payload.of_deserialize hdecode
  unfold Typed portsOf
  rw [hpayload]
  refine ⟨fun htcp => ?_, fun hudp => ?_, fun ports hports => ?_⟩
  · rw [htcp] at hdecode
    obtain ⟨tcp, -, rfl⟩ := of_map_ok (show IPv4.Payload.tcp <$> _ = _ from hdecode)
    exact ⟨tcp, rfl⟩
  · rw [hudp] at hdecode
    obtain ⟨udp, -, rfl⟩ := of_map_ok (show IPv4.Payload.udp <$> _ = _ from hdecode)
    exact ⟨udp, rfl⟩
  · cases payload with
    | tcp tcp => exact .inl hof
    | udp udp => exact .inr hof
    | data packet => cases hports
    | icmp icmp => cases hports

theorem typedFrame_of_deserialize {data : List UInt8}
    (h : Ethernet.deserialize data 0 data.length = .ok (some packet)) : TypedFrame packet := by
  have hat := Ethernet.deserialize_at h
  intro htype
  obtain ⟨payload, hpayload, hdecode⟩ := hat.payload
  rw [htype] at hdecode
  obtain ⟨ip, hip, rfl⟩ := of_map_ok (show Ethernet.Payload.ipv4 <$> _ = _ from hdecode)
  exact ⟨ip, hpayload, typed_of_at (IPv4.deserialize_at hat.size_le hip)⟩

/-- Of the types, ARP and IPv4 are tested, and the fields of IPv4 for the latter only. -/
def TypeTested (r : FirewallRule) (packet : Ethernet) : Prop :=
  if r.wildcardDlType then True
  else if r.dlType = Ethernet.typeArp then packet.etherType = Ethernet.typeArp
  else if r.dlType = Ethernet.typeIPv4 then packet.etherType = Ethernet.typeIPv4 ∧
    ∀ ip, packet.payload = some (.ipv4 ip) → r.IPv4Tested ip
  else False

theorem answers_matchesType (hpacket : TypedFrame packet) :
    Answers (r.matchesType packet) (r.TypeTested packet) := by
  unfold matchesType TypeTested
  cases htype : r.wildcardDlType with
  | true => exact answers_true trivial
  | false =>
    simp only [Bool.false_eq_true, if_false]
    by_cases harp : r.dlType = Ethernet.typeArp
    · rw [if_pos harp, if_pos harp]
      exact .ite answers_false fun h => .clear _ _ (answers_true (not_not.1 h))
    · rw [if_neg harp, if_neg harp]
      by_cases hipv4 : r.dlType = Ethernet.typeIPv4
      · rw [if_pos hipv4, if_pos hipv4]
        refine .ite (fun h => answers_false fun h' => h h'.1) fun h => ?_
        obtain ⟨ip, hpayload, hip⟩ := hpacket (not_not.1 h)
        refine (answers_matchesIPv4 hpayload hip).congr ?_
        rw [hpayload]
        simp only [Option.some.injEq, Ethernet.Payload.ipv4.injEq, forall_eq']
        exact (and_iff_right (not_not.1 h)).symm
      · rw [if_neg hipv4, if_neg hipv4]
        exact answers_false id

def FlowTested (r : FirewallRule) (switchDpid : Dpid) (inPort : OFPort) (packet : Ethernet) : Prop :=
  r.SwitchMatches switchDpid ∧ r.InPortMatches inPort ∧ r.MacsMatch packet ∧ r.TypeTested packet

/-- Where the number of the port is asked for, there is one. -/
def HasNumber (r : FirewallRule) (switchDpid : Dpid) (inPort : OFPort) : Prop :=
  r.SwitchMatches switchDpid → r.wildcardInPort = false → ∃ number, inPort.getShortPortNumber = .ok number

theorem answers_matchesInPort (h : r.wildcardInPort = false → ∃ number,
    inPort.getShortPortNumber = .ok number) :
    Answers (do return ← r.matchesInPort inPort) (r.InPortMatches inPort) := by
  unfold matchesInPort InPortMatches
  cases hwildcard : r.wildcardInPort with
  | true => exact answers_true nofun
  | false =>
    obtain ⟨number, hnumber⟩ := h hwildcard
    rw [hnumber]
    intro w
    refine ⟨decide (r.inPort = number), w, rfl, ?_⟩
    rw [decide_eq_true_iff, forall_prop_of_true rfl, Except.ok.injEq]
    exact eq_comm

theorem answers_matchesFlow (hpacket : TypedFrame packet) (hport : r.HasNumber switchDpid inPort) :
    Answers (r.matchesFlow switchDpid inPort packet) (r.FlowTested switchDpid inPort packet) := by
  unfold matchesFlow FlowTested
  refine .ite (fun h => answers_false fun h' => h.2 (h'.1 h.1)) fun h => ?_
  have hswitch : r.SwitchMatches switchDpid := fun hwildcard => not_not.1 fun hne => h ⟨hwildcard, hne⟩
  refine Answers.congr ?_ (and_iff_right hswitch).symm
  refine (answers_matchesInPort (hport hswitch)).and (.clear _ _ ?_)
  refine .ite (fun h => answers_false fun h' => h.2 (h'.1.1 h.1)) fun h => .clear _ _ ?_
  refine .ite (fun h => answers_false fun h' => h.2 (h'.1.2 h.1)) fun h' => .clear _ _ ?_
  have hmacs : r.MacsMatch packet :=
    ⟨fun hwildcard => not_not.1 fun hne => h ⟨hwildcard, hne⟩,
      fun hwildcard => not_not.1 fun hne => h' ⟨hwildcard, hne⟩⟩
  refine Answers.congr ?_ (and_iff_right hmacs).symm
  refine Answers.congr ((answers_matchesType hpacket).and (.clear _ _ (answers_true trivial))) ?_
  exact iff_of_eq (and_true _)

/-- For a port without a number an exception is thrown. -/
theorem matchesFlow_error (packet : Ethernet) (hport : ¬r.HasNumber switchDpid inPort) (w : WildcardsPair) :
    ∃ e, r.matchesFlow switchDpid inPort packet w = .error e := by
  unfold HasNumber at hport
  push Not at hport
  obtain ⟨hswitch, hwildcard, hnumber⟩ := hport
  have hswitch' : ¬(r.wildcardDpid = false ∧ r.dpid ≠ switchDpid) := fun h => h.2 (hswitch h.1)
  unfold matchesFlow matchesInPort
  rw [if_neg hswitch', if_neg (by rw [hwildcard]; decide)]
  cases hport : inPort.getShortPortNumber with
  | ok number => exact absurd hport (hnumber number)
  | error e => exact ⟨e, rfl⟩

theorem not_answers {P : Prop} (hport : ¬r.HasNumber switchDpid inPort) :
    ¬Answers (r.matchesFlow switchDpid inPort packet) P := by
  intro h
  obtain ⟨b, w, hb, -⟩ := h {}
  obtain ⟨e, he⟩ := matchesFlow_error packet hport {}
  cases hb.symm.trans he

theorem getElem_shifted (x : BitVec 32) {k i : ℕ} (hi : i < 32) :
    (x.sshiftRight k <<< k)[i] = (decide (k ≤ i) && x[i]) := by
  rw [BitVec.getElem_shiftLeft]
  by_cases h : i < k
  · simp [h, Nat.not_le.2 h]
  · have hadd : k + (i - k) = i := Nat.add_sub_cancel' (Nat.not_lt.1 h)
    simp [h, BitVec.getElem_sshiftRight, hadd, hi, Nat.not_lt.1 h]

/-- Two addresses without their last bits. -/
theorem shifted_eq_iff (a b : BitVec 32) (k : ℕ) :
    a.sshiftRight k <<< k = b.sshiftRight k <<< k ↔ a.toNat / 2 ^ k = b.toNat / 2 ^ k := by
  rw [← Nat.shiftRight_eq_div_pow, ← Nat.shiftRight_eq_div_pow]
  constructor
  · intro h
    refine Nat.eq_of_testBit_eq fun i => ?_
    rw [Nat.testBit_shiftRight, Nat.testBit_shiftRight]
    by_cases hi : k + i < 32
    · have hbit := congrArg (fun x : BitVec 32 => x[k + i]) h
      simp only [getElem_shifted _ hi, Nat.le_add_right, decide_true, Bool.true_and] at hbit
      exact hbit
    · have hlt (c : BitVec 32) : c.toNat.testBit (k + i) = false :=
        Nat.testBit_lt_two_pow (c.isLt.trans_le (Nat.pow_le_pow_right (by decide) (Nat.not_lt.1 hi)))
      rw [hlt, hlt]
  · intro h
    ext i hi
    rw [getElem_shifted a hi, getElem_shifted b hi]
    by_cases hk : k ≤ i
    · have hbit := congrArg (fun n : ℕ => n.testBit (i - k)) h
      simp only [Nat.testBit_shiftRight, Nat.add_sub_cancel' hk] at hbit
      have ha : a[i] = b[i] := hbit
      rw [ha]
    · simp [hk]

theorem toNat_distance {x : BitVec 32} {n : ℕ} (hx : x.toInt = n) (hn : n < 32) :
    (x.smod 32).toNat = n := by
  have hsmod : (x.smod 32).toInt = n := by
    rw [BitVec.toInt_smod, hx]
    exact Int.fmod_eq_of_lt (by omega) (Int.ofNat_lt.2 hn)
  rw [BitVec.toInt_eq_toNat_cond] at hsmod
  split_ifs at hsmod <;> omega

/-- With mask bits, the prefix is compared as it should be. -/
theorem matchIPAddress_iff {rulePrefix maskbits : Int32} {address : UInt32} (h : 0 < maskbits) :
    matchIPAddress rulePrefix maskbits address.toInt32 = true ↔ Contains rulePrefix maskbits address := by
  have hpos : 0 < maskbits.toInt := Int32.lt_iff_toInt_lt.1 h
  have hlt := maskbits.toInt_lt
  have hsub : (32 - maskbits).toInt = 32 - maskbits.toInt := by
    rw [Int32.toInt_sub, show (32 : Int32).toInt = 32 from rfl]
    exact Int.bmod_eq_of_le (by omega) (by omega)
  unfold matchIPAddress Contains
  by_cases hrng : 0 < 32 - maskbits
  · have hrngInt : 0 < 32 - maskbits.toInt := hsub ▸ Int32.lt_iff_toInt_lt.1 hrng
    have hk : ((32 - maskbits).toBitVec.smod 32).toNat = 32 - maskbits.toInt.toNat := by
      refine toNat_distance ?_ (by omega)
      rw [Int32.toInt_toBitVec, hsub]
      omega
    simp only [if_pos hrng, decide_eq_true_eq]
    rw [← Int32.toBitVec_inj]
    have hiff := shifted_eq_iff rulePrefix.toBitVec address.toBitVec (32 - maskbits.toInt.toNat)
    rw [← hk] at hiff
    rw [← hk]
    exact hiff
  · have hrngInt : ¬0 < 32 - maskbits.toInt := fun h => hrng (Int32.lt_iff_toInt_lt.2 (hsub ▸ h))
    have hzero : 32 - maskbits.toInt.toNat = 0 := by omega
    simp only [if_neg hrng, decide_eq_true_eq]
    rw [hzero, Nat.pow_zero, Nat.div_one, Nat.div_one, ← Int32.toBitVec_inj]
    exact BitVec.toNat_inj.symm

/-- A prefix without mask bits contains every address. -/
theorem contains_of_not_pos {rulePrefix maskbits : Int32} {address : UInt32} (h : ¬0 < maskbits) :
    Contains rulePrefix maskbits address := by
  have hpos : ¬0 < maskbits.toInt := fun h' => h (Int32.lt_iff_toInt_lt.2 h')
  have hzero : 32 - maskbits.toInt.toNat = 32 := by omega
  unfold Contains
  rw [hzero, Nat.div_eq_of_lt rulePrefix.toUInt32.toNat_lt, Nat.div_eq_of_lt address.toNat_lt]

/-- A prefix without mask bits is compared nevertheless, and the address is another one. -/
def AddressMissed (wildcard : Bool) (rulePrefix maskbits : Int32) (address : UInt32) : Prop :=
  wildcard = false ∧ ¬0 < maskbits ∧ matchIPAddress rulePrefix maskbits address.toInt32 = false

instance {wildcard : Bool} {rulePrefix maskbits : Int32} {address : UInt32} :
    Decidable (AddressMissed wildcard rulePrefix maskbits address) :=
  inferInstanceAs (Decidable (_ ∧ _ ∧ _))

theorem addressTested_iff {wildcard : Bool} {rulePrefix maskbits : Int32} {address : UInt32}
    (h : ¬AddressMissed wildcard rulePrefix maskbits address) :
    AddressTested wildcard rulePrefix maskbits address ↔
      (wildcard = false → Contains rulePrefix maskbits address) := by
  refine imp_congr_ctx Iff.rfl fun hwildcard => ?_
  by_cases hpos : 0 < maskbits
  · exact matchIPAddress_iff hpos
  · refine iff_of_true ?_ (contains_of_not_pos hpos)
    exact Bool.not_eq_false _ ▸ fun hfalse => h ⟨hwildcard, hpos, hfalse⟩

theorem not_addressTested {wildcard : Bool} {rulePrefix maskbits : Int32} {address : UInt32}
    (h : AddressMissed wildcard rulePrefix maskbits address) :
    ¬AddressTested wildcard rulePrefix maskbits address := fun htested =>
  nomatch h.2.2.symm.trans (htested h.1)

/-! ## What is handled right -/

theorem fieldMatches_some {α : Type} {wildcard : Bool} {v : α} {P : α → Prop} :
    FieldMatches wildcard (some v) P ↔ (wildcard = false → P v) := by
  unfold FieldMatches
  simp

/-- The ports are left alone, or compared where they are not 0. -/
def ProtocolHandled (r : FirewallRule) (ip : IPv4) : Prop :=
  if r.wildcardNwProto then r.PortsMatch (some ip)
  else if r.nwProto = 0x6 ∨ r.nwProto = 0x11 then
    r.ProtocolMatches (some ip) → ∀ ports, portsOf ip = some ports →
      (r.PortsTested ports ↔ r.PortsMatch (some ip))
  else if r.nwProto = 0x1 then r.ProtocolMatches (some ip) → r.PortsMatch (some ip)
  else r.ProtocolMatches (some ip) ∧ r.PortsMatch (some ip)

theorem protocolMatches_iff (hwildcard : r.wildcardNwProto = false) {number : Int16} {protocol : UInt8}
    (hnumber : r.nwProto = number) (hprotocol : number.toInt = protocol.toNat) :
    r.ProtocolMatches (some ip) ↔ ip.protocol = protocol := by
  unfold ProtocolMatches
  rw [fieldMatches_some, forall_prop_of_true hwildcard, hnumber, hprotocol, Int.ofNat_inj, UInt8.toNat_inj]
  exact eq_comm

theorem exists_ports (hip : Typed ip)
    (h : ip.protocol = IPv4.protocolTcp ∨ ip.protocol = IPv4.protocolUdp) : ∃ ports, portsOf ip = some ports := by
  obtain h | h := h
  · obtain ⟨tcp, htcp⟩ := hip.1 h
    unfold portsOf
    rw [htcp]
    exact ⟨_, rfl⟩
  · obtain ⟨udp, hudp⟩ := hip.2.1 h
    unfold portsOf
    rw [hudp]
    exact ⟨_, rfl⟩

/-- The ports of a packet of the protocol are tested as they should be. -/
theorem portsTested_iff {protocol : UInt8} {P : Prop} (hip : Typed ip)
    (hprotocol : protocol = IPv4.protocolTcp ∨ protocol = IPv4.protocolUdp) :
    ((ip.protocol = protocol ∧ ∀ ports, portsOf ip = some ports → r.PortsTested ports) ↔
      ip.protocol = protocol ∧ P) ↔
    (ip.protocol = protocol → ∀ ports, portsOf ip = some ports → (r.PortsTested ports ↔ P)) := by
  by_cases hproto : ip.protocol = protocol
  · obtain ⟨ports, hports⟩ := exists_ports hip (hproto ▸ hprotocol)
    simp only [hproto, true_and, hports, Option.some.injEq, forall_eq', forall_const]
  · simp only [hproto, false_and, false_imp_iff]

theorem protocolHandled_iff (hip : Typed ip) : ((r.wildcardNwProto = false → r.ProtocolTested ip) ↔
    r.ProtocolMatches (some ip) ∧ r.PortsMatch (some ip)) ↔ r.ProtocolHandled ip := by
  unfold ProtocolHandled ProtocolTested
  cases hwildcard : r.wildcardNwProto with
  | true =>
    have hmatches : r.ProtocolMatches (some ip) := by
      unfold ProtocolMatches
      rw [fieldMatches_some, hwildcard]
      nofun
    simp [hmatches]
  | false =>
    rw [forall_prop_of_true rfl, if_neg Bool.false_ne_true]
    by_cases htcp : r.nwProto = 0x6
    · have hproto : r.ProtocolMatches (some ip) ↔ ip.protocol = IPv4.protocolTcp :=
        protocolMatches_iff hwildcard htcp rfl
      rw [if_pos htcp, if_pos (.inl htcp), hproto]
      exact portsTested_iff hip (.inl rfl)
    · rw [if_neg htcp]
      by_cases hudp : r.nwProto = 0x11
      · have hproto : r.ProtocolMatches (some ip) ↔ ip.protocol = IPv4.protocolUdp :=
          protocolMatches_iff hwildcard hudp rfl
        rw [if_pos hudp, if_pos (.inr hudp), hproto]
        exact portsTested_iff hip (.inr rfl)
      · rw [if_neg hudp, if_neg (not_or.2 ⟨htcp, hudp⟩)]
        by_cases hicmp : r.nwProto = 0x1
        · have hproto : r.ProtocolMatches (some ip) ↔ ip.protocol = IPv4.protocolIcmp :=
            protocolMatches_iff hwildcard hicmp rfl
          rw [if_pos hicmp, if_pos hicmp, hproto]
          exact ⟨fun h hp => (h.1 hp).2, fun h => ⟨fun hp => ⟨hp, h hp⟩, fun hp => hp.1⟩⟩
        · rw [if_neg hicmp, if_neg hicmp]
          exact ⟨fun h => h.1 trivial, fun h => iff_of_true trivial h⟩

/-- An address is compared with a prefix of no bits, and differs, or the rest is right. -/
def IPv4Handled (r : FirewallRule) (ip : IPv4) : Prop :=
  if AddressMissed r.wildcardNwSrc r.nwSrcPrefix r.nwSrcMaskbits ip.sourceAddress ∨
      AddressMissed r.wildcardNwDst r.nwDstPrefix r.nwDstMaskbits ip.destinationAddress then
    ¬r.UpperMatches (some ip)
  else r.AddressesMatch (some ip) → r.ProtocolHandled ip

theorem ipv4Handled_iff (hip : Typed ip) :
    (r.IPv4Tested ip ↔ r.UpperMatches (some ip)) ↔ r.IPv4Handled ip := by
  unfold IPv4Handled IPv4Tested
  by_cases hmissed : AddressMissed r.wildcardNwSrc r.nwSrcPrefix r.nwSrcMaskbits ip.sourceAddress ∨
    AddressMissed r.wildcardNwDst r.nwDstPrefix r.nwDstMaskbits ip.destinationAddress
  · rw [if_pos hmissed]
    have hnot : ¬(AddressTested r.wildcardNwSrc r.nwSrcPrefix r.nwSrcMaskbits ip.sourceAddress ∧
        AddressTested r.wildcardNwDst r.nwDstPrefix r.nwDstMaskbits ip.destinationAddress ∧
        (r.wildcardNwProto = false → r.ProtocolTested ip)) := fun h =>
      hmissed.elim (fun hm => not_addressTested hm h.1) (fun hm => not_addressTested hm h.2.1)
    exact ⟨fun h hm => hnot (h.2 hm), fun h => iff_of_false hnot h⟩
  · rw [if_neg hmissed]
    have haddresses : r.AddressesMatch (some ip) ↔
        AddressTested r.wildcardNwSrc r.nwSrcPrefix r.nwSrcMaskbits ip.sourceAddress ∧
        AddressTested r.wildcardNwDst r.nwDstPrefix r.nwDstMaskbits ip.destinationAddress := by
      unfold AddressesMatch
      rw [fieldMatches_some, fieldMatches_some, addressTested_iff fun h => hmissed (.inl h),
        addressTested_iff fun h => hmissed (.inr h)]
    unfold UpperMatches
    rw [← and_assoc, ← haddresses, ← protocolHandled_iff hip]
    exact and_congr_right_iff

/-- The frames that a rule answers right for: where the answer does not look at a field, the field must
match, or must not where the answer is no. -/
def TypeHandled (r : FirewallRule) (packet : Ethernet) : Prop :=
  if r.wildcardDlType then r.UpperMatches (ipv4Of packet)
  else if r.dlType = Ethernet.typeArp then
    packet.etherType = Ethernet.typeArp → r.UpperMatches (ipv4Of packet)
  else if r.dlType = Ethernet.typeIPv4 then packet.etherType = Ethernet.typeIPv4 →
    ∀ ip, packet.payload = some (.ipv4 ip) → r.IPv4Handled ip
  else packet.etherType = r.dlType → ¬r.UpperMatches (ipv4Of packet)

theorem typeHandled_iff (hpacket : TypedFrame packet) :
    (r.TypeTested packet ↔ (r.wildcardDlType = false → packet.etherType = r.dlType) ∧
      r.UpperMatches (ipv4Of packet)) ↔ r.TypeHandled packet := by
  unfold TypeHandled TypeTested
  cases htype : r.wildcardDlType with
  | true => simp
  | false =>
    rw [forall_prop_of_true rfl, if_neg Bool.false_ne_true, if_neg Bool.false_ne_true]
    by_cases harp : r.dlType = Ethernet.typeArp
    · rw [if_pos harp, if_pos harp, harp]
      exact ⟨fun h htype => (h.1 htype).2, fun h => ⟨fun htype => ⟨htype, h htype⟩, And.left⟩⟩
    · rw [if_neg harp, if_neg harp]
      by_cases hipv4 : r.dlType = Ethernet.typeIPv4
      · rw [if_pos hipv4, if_pos hipv4, hipv4]
        by_cases heth : packet.etherType = Ethernet.typeIPv4
        · obtain ⟨ip, hpayload, hip⟩ := hpacket heth
          have hof : ipv4Of packet = some ip := by
            unfold ipv4Of
            rw [hpayload]
          simp only [heth, hpayload, hof, true_and, Option.some.injEq, Ethernet.Payload.ipv4.injEq,
            forall_eq', forall_const]
          exact ipv4Handled_iff hip
        · simp only [heth, false_and, false_imp_iff]
      · rw [if_neg hipv4, if_neg hipv4, false_iff, not_and]

/-- The packets that a rule answers right for: they come from a port with a number, if the number is asked
for, and what is not looked at in them is as the answer says. -/
def Handled (r : FirewallRule) (switchDpid : Dpid) (inPort : OFPort) (packet : Ethernet) : Prop :=
  r.HasNumber switchDpid inPort ∧
    (r.SwitchMatches switchDpid → r.InPortMatches inPort → r.MacsMatch packet → r.TypeHandled packet)

theorem matches_iff : r.Matches switchDpid inPort packet ↔ r.SwitchMatches switchDpid ∧
    r.InPortMatches inPort ∧ r.MacsMatch packet ∧
      ((r.wildcardDlType = false → packet.etherType = r.dlType) ∧ r.UpperMatches (ipv4Of packet)) :=
  ⟨fun h => ⟨h.switch, h.inPort, h.macs, h.type, h.upper⟩,
    fun h => ⟨h.1, h.2.1, h.2.2.1, h.2.2.2.1, h.2.2.2.2⟩⟩

/-- A rule answers a decoded packet as it says if and only if the packet is handled right. -/
theorem answers_matches_iff (r : FirewallRule) (switchDpid : Dpid) (inPort : OFPort) {data : List UInt8}
    {packet : Ethernet} (h : Ethernet.deserialize data 0 data.length = .ok (some packet)) :
    Answers (r.matchesFlow switchDpid inPort packet) (r.Matches switchDpid inPort packet) ↔
      r.Handled switchDpid inPort packet := by
  have hpacket := typedFrame_of_deserialize h
  unfold Handled
  by_cases hport : r.HasNumber switchDpid inPort
  · rw [and_iff_right hport, (answers_matchesFlow hpacket hport).iff, matches_iff, FlowTested,
      and_congr_right_iff, and_congr_right_iff, and_congr_right_iff, typeHandled_iff hpacket]
  · exact iff_of_false (not_answers hport) fun h => hport h.1

/-- A rule that denies what is for the port 80. -/
def denyWeb : FirewallRule := { wildcardTpDst := false, tpDst := 80, action := .deny }

/-- A rule that allows ICMP from a network. -/
def allowPing : FirewallRule where
  wildcardDlType := false
  dlType := Ethernet.typeIPv4
  wildcardNwSrc := false
  nwSrcPrefix := 0x0a000000
  nwSrcMaskbits := 8
  wildcardNwProto := false
  nwProto := 0x1

theorem answers_allowPing : Answers
    (allowPing.matchesFlow 1 1 (Match.decodedEcho Ethernet.vlanUntagged))
    (allowPing.Matches 1 1 (Match.decodedEcho Ethernet.vlanUntagged)) := by
  have hdecode : Ethernet.deserialize Match.untaggedEcho 0 Match.untaggedEcho.length =
      .ok (some (Match.decodedEcho Ethernet.vlanUntagged)) := rfl
  refine (answers_matches_iff allowPing 1 1 hdecode).2 ⟨fun _ => nofun, fun _ _ _ _ ip hip => ?_⟩
  cases hip
  exact fun _ _ => ⟨nofun, nofun⟩

/-- A rule that names a port only matches a packet without ports. -/
theorem not_answers_matches : ¬∀ (r : FirewallRule) (switchDpid : Dpid) (inPort : OFPort)
    (data : List UInt8) (packet : Ethernet), Ethernet.deserialize data 0 data.length = .ok (some packet) →
      Answers (r.matchesFlow switchDpid inPort packet) (r.Matches switchDpid inPort packet) := by
  intro h
  obtain ⟨b, w, hb, hiff⟩ := h denyWeb 1 1 Match.untaggedEcho (Match.decodedEcho Ethernet.vlanUntagged) rfl {}
  cases hb
  obtain ⟨ports, hports, -⟩ := (hiff.1 rfl).upper.2.2.2 rfl
  cases hports

end FirewallRule

end Torpedo
