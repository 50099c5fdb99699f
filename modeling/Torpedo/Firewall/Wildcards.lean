import Torpedo.Firewall.Rules

/-!
# Wildcards of decisions

The decision on a packet comes with the wildcards of a flow entry, and is to hold of every packet that differs
in wildcards only. It does where the rules of the other action are stopped at a field that the entry names, that
is one a rule of the action has got past. The fields at which a rule is stopped stay wildcards, and of an
address the first bit is named at most.
-/

namespace Torpedo

/-- The wildcards for an action. -/
def WildcardsPair.of (wildcards : WildcardsPair) : FirewallAction → UInt32
  | .deny => wildcards.drop
  | .allow => wildcards.allow

namespace FirewallRule

/-! ## Fields -/

/-- What a flow entry may name. -/
inductive HeaderField
  | inPort | dlSrc | dlDst | dlType | nwSrc | nwDst | nwProto | tpSrc | tpDst
deriving DecidableEq, Repr

/-- A flow entry names the field, or the first bit of the address, if it has none of these wildcards. -/
def HeaderField.bits : HeaderField → UInt32
  | .inPort => ofpfwInPort
  | .dlSrc => ofpfwDlSrc
  | .dlDst => ofpfwDlDst
  | .dlType => ofpfwDlType
  | .nwSrc => (32 : UInt32) <<< ofpfwNwSrcShift
  | .nwDst => (32 : UInt32) <<< ofpfwNwDstShift
  | .nwProto => ofpfwNwProto
  | .tpSrc => ofpfwTpSrc
  | .tpDst => ofpfwTpDst

/-- The rule is for IPv4, and so is the packet. -/
def AtIPv4 (r : FirewallRule) (packet : Ethernet) (ip : IPv4) : Prop :=
  r.wildcardDlType = false ∧ r.dlType = Ethernet.typeIPv4 ∧ packet.etherType = Ethernet.typeIPv4 ∧
    packet.payload = some (.ipv4 ip)

def SrcTested (r : FirewallRule) (ip : IPv4) : Prop :=
  AddressTested r.wildcardNwSrc r.nwSrcPrefix r.nwSrcMaskbits ip.sourceAddress

def DstTested (r : FirewallRule) (ip : IPv4) : Prop :=
  AddressTested r.wildcardNwDst r.nwDstPrefix r.nwDstMaskbits ip.destinationAddress

/-- The rule is for the protocol of the packet, which has ports. -/
def AtPorts (r : FirewallRule) (ip : IPv4) (ports : UInt16 × UInt16) : Prop :=
  r.wildcardNwProto = false ∧ portsOf ip = some ports ∧
    (r.nwProto = 0x6 ∧ ip.protocol = IPv4.protocolTcp ∨ r.nwProto = 0x11 ∧ ip.protocol = IPv4.protocolUdp)

/-- The rule gets past the test of the field. -/
def Passed (r : FirewallRule) (switchDpid : Dpid) (inPort : OFPort) (packet : Ethernet) : HeaderField → Prop
  | .inPort => r.SwitchMatches switchDpid ∧ r.InPortMatches inPort
  | .dlSrc => r.SwitchMatches switchDpid ∧ r.InPortMatches inPort ∧
      (r.wildcardDlSrc = false → r.dlSrc = packet.sourceMACAddress.toLong)
  | .dlDst => r.SwitchMatches switchDpid ∧ r.InPortMatches inPort ∧ r.MacsMatch packet
  | .dlType => r.FlowTested switchDpid inPort packet
  | .nwProto => r.SwitchMatches switchDpid ∧ r.InPortMatches inPort ∧ r.MacsMatch packet ∧ ∃ ip, r.AtIPv4 packet ip
  | .nwSrc => r.SwitchMatches switchDpid ∧ r.InPortMatches inPort ∧ r.MacsMatch packet ∧
      ∃ ip, r.AtIPv4 packet ip ∧ r.SrcTested ip
  | .nwDst => r.SwitchMatches switchDpid ∧ r.InPortMatches inPort ∧ r.MacsMatch packet ∧
      ∃ ip, r.AtIPv4 packet ip ∧ r.SrcTested ip ∧ r.DstTested ip
  | .tpSrc => r.SwitchMatches switchDpid ∧ r.InPortMatches inPort ∧ r.MacsMatch packet ∧
      ∃ ip, r.AtIPv4 packet ip ∧ (r.SrcTested ip ∧ r.DstTested ip) ∧
        ∃ ports, r.AtPorts ip ports ∧ (r.tpSrc = 0 ∨ r.tpSrc = ports.1.toInt16)
  | .tpDst => r.SwitchMatches switchDpid ∧ r.InPortMatches inPort ∧ r.MacsMatch packet ∧
      ∃ ip, r.AtIPv4 packet ip ∧ (r.SrcTested ip ∧ r.DstTested ip) ∧ ∃ ports, r.AtPorts ip ports ∧ r.PortsTested ports

/-! ## Bits -/

theorem and_not_and_self (x bits : UInt32) : (x &&& ~~~bits) &&& bits = 0 := by
  rw [UInt32.and_assoc]
  simp

theorem and_not_and {x bits : UInt32} (h : x &&& bits = 0) (c : UInt32) : (x &&& ~~~c) &&& bits = 0 := by
  rw [UInt32.and_assoc, UInt32.and_comm (~~~c), ← UInt32.and_assoc, h, UInt32.zero_and]

theorem or_and {x y bits : UInt32} (hx : x &&& bits = 0) (hy : y &&& bits = 0) : (x ||| y) &&& bits = 0 := by
  have hdistrib : (x ||| y) &&& bits = x &&& bits ||| y &&& bits := UInt32.toBitVec_inj.1 BitVec.and_or_distrib_right
  rw [hdistrib, hx, hy, UInt32.or_self]

/-- The wildcards for the action have none of the bits. -/
def Lacks (a : FirewallAction) (bits : UInt32) (w : WildcardsPair) : Prop := w.of a &&& bits = 0

/-- The wildcards after a change by the rule. -/
def updated (r : FirewallRule) (change : UInt32 → UInt32) (w : WildcardsPair) : WildcardsPair :=
  if r.action = .deny then { w with drop := change w.drop } else { w with allow := change w.allow }

variable {r : FirewallRule} {a : FirewallAction} {bits : UInt32} {w : WildcardsPair} {f g k : Flow Bool}
  {P Q : WildcardsPair → Prop}

theorem of_updated (change : UInt32 → UInt32) : (r.updated change w).of r.action = change (w.of r.action) := by
  unfold updated
  cases r.action <;> rfl

theorem of_updated_of_ne (h : r.action ≠ a) (change : UInt32 → UInt32) : (r.updated change w).of a = w.of a := by
  unfold updated
  cases ha : r.action <;> cases a <;> first | rfl | exact absurd ha h

/-- A change by a rule of the action only. -/
theorem Lacks.updated {change : UInt32 → UInt32} (hw : Lacks a bits w)
    (hchange : r.action = a → ∀ x, x &&& bits = 0 → change x &&& bits = 0) : Lacks a bits (r.updated change w) := by
  unfold Lacks at hw ⊢
  by_cases ha : r.action = a
  · subst ha
    rw [of_updated]
    exact hchange rfl _ hw
  · rw [of_updated_of_ne ha]
    exact hw

/-! ## What is kept -/

/-- What holds of the wildcards still holds after the run. -/
def Keeps (P : WildcardsPair → Prop) (f : Flow Bool) : Prop := ∀ w b w', f w = .ok (b, w') → P w → P w'

/-- What holds of the wildcards after the run. -/
def Makes (P : WildcardsPair → Prop) (f : Flow Bool) : Prop := ∀ w b w', f w = .ok (b, w') → P w'

theorem keeps_return (b : Bool) : Keeps P (return b) := by
  rintro w b' w' ⟨⟩ hw
  exact hw

theorem Keeps.ite {c : Prop} [Decidable c] (hf : Keeps P f) (hg : Keeps P g) : Keeps P (if c then f else g) := by
  split_ifs
  · exact hf
  · exact hg

theorem Keeps.update {change : UInt32 → UInt32} (hk : Keeps P k) (h : ∀ w, P w → P (r.updated change w)) :
    Keeps P (do r.update change; k) := fun w b w' hrun hw => hk _ b w' hrun (h w hw)

theorem Keeps.lift {α : Type} {e : Except Stop α} {k : α → Flow Bool} (h : ∀ x, Keeps P (k x)) :
    Keeps P (do let x ← e; k x) := by
  intro w b w' hrun hw
  cases e with
  | error stop => cases hrun
  | ok x => exact h x w b w' hrun hw

theorem Keeps.bind {k : Bool → Flow Bool} (hf : Keeps P f) (h : ∀ x, Keeps P (k x)) :
    Keeps P (do let x ← f; k x) := by
  intro w b w' hrun hw
  cases hf' : f w with
  | error stop =>
    have hstop : (f w >>= fun p => k p.1 p.2) = .ok (b, w') := hrun
    rw [hf'] at hstop
    cases hstop
  | ok p =>
    have hnext : (f w >>= fun p => k p.1 p.2) = .ok (b, w') := hrun
    rw [hf'] at hnext
    exact h p.1 p.2 b w' hnext (hf w p.1 p.2 hf' hw)

theorem Keeps.clear (hk : Keeps (Lacks a bits) k) (c : UInt32) : Keeps (Lacks a bits) (do r.clear c; k) :=
  hk.update fun _ hw => hw.updated fun _ _ hx => and_not_and hx c

/-- The mask bits of the rule set none of the bits. -/
def LeavesOut (r : FirewallRule) (bits : UInt32) : Prop :=
  r.nwSrcMaskbits.toUInt32 <<< ofpfwNwSrcShift &&& bits = 0 ∧
  r.nwDstMaskbits.toUInt32 <<< ofpfwNwDstShift &&& bits = 0

theorem Keeps.setMaskbits {maskbits : Int32} {shift : UInt32} (hk : Keeps (Lacks a bits) k)
    (h : r.action = a → maskbits.toUInt32 <<< shift &&& bits = 0) :
    Keeps (Lacks a bits) (do r.setMaskbits maskbits shift; k) :=
  Keeps.clear (Keeps.update hk fun _ hw => hw.updated fun ha _ hx => or_and hx (h ha)) _

theorem keeps_matchesPorts (pktTpSrc pktTpDst : UInt16) :
    Keeps (Lacks a bits) (r.matchesPorts pktTpSrc pktTpDst) :=
  .ite (keeps_return _) (.clear (.ite (keeps_return _) (.clear (keeps_return _) _)) _)

theorem keeps_matchesProtocol (pktIp : Option IPv4) : Keeps (Lacks a bits) (r.matchesProtocol pktIp) := by
  have hports : ∀ pktTpSrc pktTpDst,
      Keeps (Lacks a bits) (do r.clear ofpfwNwProto; r.matchesPorts pktTpSrc pktTpDst) :=
    fun _ _ => .clear (keeps_matchesPorts _ _) _
  unfold matchesProtocol
  refine .ite (.lift fun ip => .ite (keeps_return _) (.lift fun tcp => hports _ _)) (.ite ?_ (.ite ?_ ?_))
  · exact .lift fun ip => .ite (keeps_return _) (.lift fun udp => hports _ _)
  · exact .lift fun ip => .ite (keeps_return _) (.clear (keeps_return _) _)
  · exact .clear (keeps_return _) _

/-- What comes behind the test of the destination. -/
theorem keeps_afterAddresses (pktIp : Option IPv4) :
    Keeps (Lacks a bits) (if r.wildcardNwProto then return true else r.matchesProtocol pktIp) :=
  .ite (keeps_return _) (keeps_matchesProtocol _)

/-- What comes behind the test of the source. -/
theorem keeps_afterSrc (pktIp : Option IPv4) (h : r.action = a → r.LeavesOut bits) :
    Keeps (Lacks a bits) (do
      let matchesDst ←
        matchesAddress r.wildcardNwDst r.nwDstPrefix r.nwDstMaskbits pktIp IPv4.destinationAddress
      if !matchesDst then return false
      else
        r.setMaskbits r.nwDstMaskbits ofpfwNwDstShift
        if r.wildcardNwProto then return true else r.matchesProtocol pktIp) :=
  .lift fun _ => .ite (keeps_return _) (.setMaskbits (keeps_afterAddresses pktIp) fun ha => (h ha).2)

theorem keeps_matchesIPv4 (packet : Ethernet) (h : r.action = a → r.LeavesOut bits) :
    Keeps (Lacks a bits) (r.matchesIPv4 packet) := by
  unfold matchesIPv4
  refine .clear (.lift fun pktIp => .lift fun matchesSrc => .ite (keeps_return _) ?_) _
  exact .setMaskbits (keeps_afterSrc pktIp h) fun ha => (h ha).1

theorem keeps_matchesType (packet : Ethernet) (h : r.action = a → r.LeavesOut bits) :
    Keeps (Lacks a bits) (r.matchesType packet) := by
  unfold matchesType
  refine .ite (keeps_return _) (.ite (.ite (keeps_return _) (.clear (keeps_return _) _)) (.ite ?_ (keeps_return _)))
  exact .ite (keeps_return _) (keeps_matchesIPv4 packet h)

/-- What comes behind the test of the addresses. -/
theorem keeps_afterMacs (packet : Ethernet) (h : r.action = a → r.LeavesOut bits) :
    Keeps (Lacks a bits) (do
      if !(← r.matchesType packet) then return false
      else
        r.clear ofpfwDlType
        return true) :=
  .bind (keeps_matchesType packet h) fun _ => .ite (keeps_return _) (.clear (keeps_return _) _)

/-- A bit that is cleared is not set again. -/
theorem keeps_matchesFlow (switchDpid : Dpid) (inPort : OFPort) (packet : Ethernet)
    (h : r.action = a → r.LeavesOut bits) : Keeps (Lacks a bits) (r.matchesFlow switchDpid inPort packet) := by
  unfold matchesFlow
  refine .ite (keeps_return _) (.lift fun matchesInPort => .ite (keeps_return _) (.clear ?_ _))
  exact .ite (keeps_return _) (.clear (.ite (keeps_return _) (.clear (keeps_afterMacs packet h) _)) _)

/-! ## What is cleared -/

theorem Makes.ite_pos {c : Prop} [Decidable c] (hc : c) (hf : Makes P f) : Makes P (if c then f else g) := by
  rw [if_pos hc]
  exact hf

theorem Makes.ite_neg {c : Prop} [Decidable c] (hc : ¬c) (hg : Makes P g) : Makes P (if c then f else g) := by
  rw [if_neg hc]
  exact hg

theorem Makes.clear (hk : Makes P k) (c : UInt32) : Makes P (do r.clear c; k) := fun _ b w' hrun => hk _ b w' hrun

theorem Makes.setMaskbits {maskbits : Int32} {shift : UInt32} (hk : Makes P k) :
    Makes P (do r.setMaskbits maskbits shift; k) := fun _ b w' hrun => hk _ b w' hrun

theorem Makes.lift {α : Type} {e : Except Stop α} {x : α} {k : α → Flow Bool} (he : e = .ok x) (hk : Makes P (k x)) :
    Makes P (do let x ← e; k x) := by
  subst he
  exact hk

theorem Makes.bind {k : Bool → Flow Bool} (hf : Makes P f) (hk : ∀ x, Keeps P (k x)) :
    Makes P (do let x ← f; k x) := by
  intro w b w' hrun
  have hnext : (f w >>= fun p => k p.1 p.2) = .ok (b, w') := hrun
  cases hf' : f w with
  | error stop => rw [hf'] at hnext; cases hnext
  | ok p =>
    rw [hf'] at hnext
    exact hk p.1 p.2 b w' hnext (hf w p.1 p.2 hf')

/-- What is run after an answer that is yes. -/
theorem Makes.answers {k : Bool → Flow Bool} {A : Prop} (hf : Answers f A) (hA : A) (hk : Makes P (k true)) :
    Makes P (do let x ← f; k x) := by
  intro w b w' hrun
  have hnext : (f w >>= fun p => k p.1 p.2) = .ok (b, w') := hrun
  obtain ⟨x, w'', hx, hiff⟩ := hf w
  obtain rfl : x = true := hiff.2 hA
  rw [hx] at hnext
  exact hk w'' b w' hnext

theorem Makes.clear_self (hk : Keeps (Lacks r.action bits) k) : Makes (Lacks r.action bits) (do r.clear bits; k) := by
  intro w b w' hrun
  refine hk _ b w' hrun ?_
  show (r.updated (· &&& ~~~bits) w).of r.action &&& bits = 0
  rw [of_updated]
  exact and_not_and_self _ _

theorem Makes.setMaskbits_self {maskbits : Int32} {shift : UInt32}
    (hk : Keeps (Lacks r.action ((32 : UInt32) <<< shift)) k)
    (h : maskbits.toUInt32 <<< shift &&& (32 : UInt32) <<< shift = 0) :
    Makes (Lacks r.action ((32 : UInt32) <<< shift)) (do r.setMaskbits maskbits shift; k) :=
  Makes.clear_self (Keeps.update hk fun _ hw => hw.updated fun _ _ hx => or_and hx h)

variable {switchDpid : Dpid} {inPort : OFPort} {packet : Ethernet} {ip : IPv4}

theorem matchesInPort_of_matches (h : r.InPortMatches inPort) : r.matchesInPort inPort = .ok true := by
  unfold matchesInPort
  cases hwildcard : r.wildcardInPort with
  | true => rfl
  | false =>
    rw [h hwildcard]
    simp

theorem makes_of_inPort (hswitch : r.SwitchMatches switchDpid) (hport : r.InPortMatches inPort)
    (h : Makes P (do
      r.clear ofpfwInPort
      if r.wildcardDlSrc = false ∧ r.dlSrc ≠ packet.sourceMACAddress.toLong then return false
      else
        r.clear ofpfwDlSrc
        if r.wildcardDlDst = false ∧ r.dlDst ≠ packet.destinationMACAddress.toLong then return false
        else
          r.clear ofpfwDlDst
          if !(← r.matchesType packet) then return false
          else
            r.clear ofpfwDlType
            return true)) : Makes P (r.matchesFlow switchDpid inPort packet) :=
  .ite_neg (fun h' => h'.2 (hswitch h'.1)) (.lift (matchesInPort_of_matches hport) (.ite_neg (by simp) h))

theorem makes_of_macs (hswitch : r.SwitchMatches switchDpid) (hport : r.InPortMatches inPort)
    (hmacs : r.MacsMatch packet)
    (h : Makes P (do
      if !(← r.matchesType packet) then return false
      else
        r.clear ofpfwDlType
        return true)) : Makes P (r.matchesFlow switchDpid inPort packet) :=
  makes_of_inPort hswitch hport (.clear (.ite_neg (fun h' => h'.2 (hmacs.1 h'.1))
    (.clear (.ite_neg (fun h' => h'.2 (hmacs.2 h'.1)) (.clear h _)) _)) _)

theorem matchesType_of_atIPv4 (h : r.AtIPv4 packet ip) : r.matchesType packet = r.matchesIPv4 packet := by
  unfold matchesType
  rw [if_neg (by simp [h.1]), if_neg (by rw [h.2.1]; decide), if_pos h.2.1, if_neg (not_not.2 h.2.2.1)]

theorem makes_of_ipv4 (hswitch : r.SwitchMatches switchDpid) (hport : r.InPortMatches inPort)
    (hmacs : r.MacsMatch packet) (hip : r.AtIPv4 packet ip) (h : Makes (Lacks a bits) (r.matchesIPv4 packet)) :
    Makes (Lacks a bits) (r.matchesFlow switchDpid inPort packet) := by
  refine makes_of_macs hswitch hport hmacs (.bind ?_ fun _ => .ite (keeps_return _) (.clear (keeps_return _) _))
  rw [matchesType_of_atIPv4 hip]
  exact h

theorem matchesAddress_of_tested {wildcard : Bool} {rulePrefix maskbits : Int32} {address : IPv4 → UInt32}
    (h : AddressTested wildcard rulePrefix maskbits (address ip)) :
    matchesAddress wildcard rulePrefix maskbits (some ip) address = .ok true := by
  cases wildcard with
  | true => rfl
  | false => exact congrArg Except.ok (h rfl)

theorem makes_nwProto (packet : Ethernet) (h : r.LeavesOut ofpfwNwProto) :
    Makes (Lacks r.action ofpfwNwProto) (r.matchesIPv4 packet) := by
  refine .clear_self (.lift fun pktIp => .lift fun matchesSrc => .ite (keeps_return _) ?_)
  exact .setMaskbits (keeps_afterSrc pktIp fun _ => h) fun _ => h.1

theorem makes_of_src (hip : r.AtIPv4 packet ip) (hsrc : r.SrcTested ip)
    (h : Makes P (do
      r.setMaskbits r.nwSrcMaskbits ofpfwNwSrcShift
      let matchesDst ←
        matchesAddress r.wildcardNwDst r.nwDstPrefix r.nwDstMaskbits (some ip) IPv4.destinationAddress
      if !matchesDst then return false
      else
        r.setMaskbits r.nwDstMaskbits ofpfwNwDstShift
        if r.wildcardNwProto then return true else r.matchesProtocol (some ip))) :
    Makes P (r.matchesIPv4 packet) :=
  .clear (.lift (congrArg asIPv4 hip.2.2.2) (.lift (matchesAddress_of_tested hsrc) (.ite_neg (by simp) h))) _

theorem makes_of_addresses (hip : r.AtIPv4 packet ip) (hsrc : r.SrcTested ip) (hdst : r.DstTested ip)
    (h : Makes P (do
      r.setMaskbits r.nwDstMaskbits ofpfwNwDstShift
      if r.wildcardNwProto then return true else r.matchesProtocol (some ip))) :
    Makes P (r.matchesIPv4 packet) :=
  makes_of_src hip hsrc (.setMaskbits (.lift (matchesAddress_of_tested hdst) (.ite_neg (by simp) h)))

theorem makes_of_ports (hip : r.AtIPv4 packet ip) (hsrc : r.SrcTested ip) (hdst : r.DstTested ip)
    {ports : UInt16 × UInt16} (hports : r.AtPorts ip ports) (h : Makes P (r.matchesPorts ports.1 ports.2)) :
    Makes P (r.matchesIPv4 packet) := by
  obtain ⟨hwildcard, hof, hprotocol⟩ := hports
  refine makes_of_addresses hip hsrc hdst (.setMaskbits (.ite_neg (by simp [hwildcard]) ?_))
  -- a packet with another class of payload is not cast
  unfold matchesProtocol
  obtain ⟨hnumber, hprotocol⟩ | ⟨hnumber, hprotocol⟩ := hprotocol
  · refine .ite_pos hnumber (.lift (x := ip) rfl (.ite_neg (not_not.2 hprotocol) ?_))
    unfold portsOf at hof
    split at hof
    · next tcp hpayload =>
      cases hof
      exact .lift (congrArg asTCP hpayload) (.clear h _)
    · next udp hpayload =>
      rw [hpayload]
      exact fun w b w' hrun => nomatch hrun
    · cases hof
  · refine .ite_neg (by rw [hnumber]; decide)
      (.ite_pos hnumber (.lift (x := ip) rfl (.ite_neg (not_not.2 hprotocol) ?_)))
    unfold portsOf at hof
    split at hof
    · next tcp hpayload =>
      rw [hpayload]
      exact fun w b w' hrun => nomatch hrun
    · next udp hpayload =>
      cases hof
      exact .lift (congrArg asUDP hpayload) (.clear h _)
    · cases hof

/-- A field the rule gets past is no wildcard. -/
theorem makes_matchesFlow (hpacket : TypedFrame packet) {field : HeaderField} (h : r.LeavesOut field.bits)
    (hpassed : r.Passed switchDpid inPort packet field) :
    Makes (Lacks r.action field.bits) (r.matchesFlow switchDpid inPort packet) := by
  have htail : Keeps (Lacks r.action field.bits) _ := keeps_afterMacs packet fun _ => h
  cases field with
  | inPort =>
    refine makes_of_inPort hpassed.1 hpassed.2 (.clear_self (.ite (keeps_return _) (.clear ?_ _)))
    exact .ite (keeps_return _) (.clear htail _)
  | dlSrc =>
    obtain ⟨hswitch, hport, hsrc⟩ := hpassed
    refine makes_of_inPort hswitch hport (.clear (.ite_neg (fun h' => h'.2 (hsrc h'.1)) (.clear_self ?_)) _)
    exact .ite (keeps_return _) (.clear htail _)
  | dlDst =>
    obtain ⟨hswitch, hport, hmacs⟩ := hpassed
    refine makes_of_inPort hswitch hport (.clear (.ite_neg (fun h' => h'.2 (hmacs.1 h'.1)) (.clear ?_ _)) _)
    exact .ite_neg (fun h' => h'.2 (hmacs.2 h'.1)) (.clear_self htail)
  | dlType =>
    obtain ⟨hswitch, hport, hmacs, htype⟩ := hpassed
    refine makes_of_macs hswitch hport hmacs (.answers (answers_matchesType hpacket) htype ?_)
    exact .ite_neg (by simp) (.clear_self (keeps_return _))
  | nwProto =>
    obtain ⟨hswitch, hport, hmacs, ip, hip⟩ := hpassed
    exact makes_of_ipv4 hswitch hport hmacs hip (makes_nwProto packet h)
  | nwSrc =>
    obtain ⟨hswitch, hport, hmacs, ip, hip, hsrc⟩ := hpassed
    refine makes_of_ipv4 hswitch hport hmacs hip (makes_of_src hip hsrc (.setMaskbits_self ?_ h.1))
    exact keeps_afterSrc (some ip) fun _ => h
  | nwDst =>
    obtain ⟨hswitch, hport, hmacs, ip, hip, hsrc, hdst⟩ := hpassed
    refine makes_of_ipv4 hswitch hport hmacs hip (makes_of_addresses hip hsrc hdst (.setMaskbits_self ?_ h.2))
    exact keeps_afterAddresses (some ip)
  | tpSrc =>
    obtain ⟨hswitch, hport, hmacs, ip, hip, ⟨hsrc, hdst⟩, ports, hports, htpSrc⟩ := hpassed
    refine makes_of_ipv4 hswitch hport hmacs hip (makes_of_ports hip hsrc hdst hports ?_)
    refine .ite_neg (fun h' => htpSrc.elim h'.1 h'.2)
      (.clear_self (.ite (keeps_return _) (.clear (keeps_return _) _)))
  | tpDst =>
    obtain ⟨hswitch, hport, hmacs, ip, hip, ⟨hsrc, hdst⟩, ports, hports, htpSrc, htpDst⟩ := hpassed
    refine makes_of_ipv4 hswitch hport hmacs hip (makes_of_ports hip hsrc hdst hports ?_)
    refine .ite_neg (fun h' => htpSrc.elim h'.1 h'.2) (.clear (.ite_neg (fun h' => htpDst.elim h'.1 h'.2) ?_) _)
    exact .clear_self (keeps_return _)

/-! ## Packets that agree -/

/-- The number of bits of an address that are wildcards, from 32 on all of them. -/
def addressWildcards (wildcards shift : UInt32) : ℕ := (wildcards >>> shift &&& 63).toNat

/-- Two packets have the same values in the fields that are no wildcards. -/
structure Agrees (wildcards : UInt32) (inPort inPort' : OFPort) (packet packet' : Ethernet) : Prop where
  inPort : wildcards &&& ofpfwInPort = 0 → inPort' = inPort
  dlSrc : wildcards &&& ofpfwDlSrc = 0 → packet'.sourceMACAddress = packet.sourceMACAddress
  dlDst : wildcards &&& ofpfwDlDst = 0 → packet'.destinationMACAddress = packet.destinationMACAddress
  dlType : wildcards &&& ofpfwDlType = 0 → packet'.etherType = packet.etherType
  nwSrc : addressWildcards wildcards ofpfwNwSrcShift < 32 →
    (ipv4Of packet').map (·.sourceAddress.toNat / 2 ^ addressWildcards wildcards ofpfwNwSrcShift) =
      (ipv4Of packet).map (·.sourceAddress.toNat / 2 ^ addressWildcards wildcards ofpfwNwSrcShift)
  nwDst : addressWildcards wildcards ofpfwNwDstShift < 32 →
    (ipv4Of packet').map (·.destinationAddress.toNat / 2 ^ addressWildcards wildcards ofpfwNwDstShift) =
      (ipv4Of packet).map (·.destinationAddress.toNat / 2 ^ addressWildcards wildcards ofpfwNwDstShift)
  nwProto : wildcards &&& ofpfwNwProto = 0 → (ipv4Of packet').map IPv4.protocol = (ipv4Of packet).map IPv4.protocol
  tpSrc : wildcards &&& ofpfwTpSrc = 0 →
    ((ipv4Of packet').bind portsOf).map Prod.fst = ((ipv4Of packet).bind portsOf).map Prod.fst
  tpDst : wildcards &&& ofpfwTpDst = 0 →
    ((ipv4Of packet').bind portsOf).map Prod.snd = ((ipv4Of packet).bind portsOf).map Prod.snd

/-- What two packets have in common that have a field in common, and of an address the first bit. -/
def SameIn (inPort inPort' : OFPort) (packet packet' : Ethernet) : HeaderField → Prop
  | .inPort => inPort' = inPort
  | .dlSrc => packet'.sourceMACAddress = packet.sourceMACAddress
  | .dlDst => packet'.destinationMACAddress = packet.destinationMACAddress
  | .dlType => packet'.etherType = packet.etherType
  | .nwSrc => (ipv4Of packet').map (·.sourceAddress.toNat / 2 ^ 31) =
      (ipv4Of packet).map (·.sourceAddress.toNat / 2 ^ 31)
  | .nwDst => (ipv4Of packet').map (·.destinationAddress.toNat / 2 ^ 31) =
      (ipv4Of packet).map (·.destinationAddress.toNat / 2 ^ 31)
  | .nwProto => (ipv4Of packet').map IPv4.protocol = (ipv4Of packet).map IPv4.protocol
  | .tpSrc => ((ipv4Of packet').bind portsOf).map Prod.fst = ((ipv4Of packet).bind portsOf).map Prod.fst
  | .tpDst => ((ipv4Of packet').bind portsOf).map Prod.snd = ((ipv4Of packet).bind portsOf).map Prod.snd

variable {inPort' : OFPort} {packet' : Ethernet} {wildcards : UInt32}

/-- Without the wildcard for 32 bits, there are fewer. -/
theorem addressWildcards_lt {shift : UInt32} (hshift : ((32 : UInt32) <<< shift).toNat = 2 ^ (shift.toNat % 32 + 5))
    (h : wildcards &&& (32 : UInt32) <<< shift = 0) : addressWildcards wildcards shift < 32 := by
  have hbit : wildcards.toNat / 2 ^ (shift.toNat % 32) / 32 % 2 = 0 := by
    have hand : wildcards.toNat &&& 2 ^ (shift.toNat % 32 + 5) = 0 := by
      rw [← hshift, ← UInt32.toNat_and, h]
      rfl
    have hfalse : wildcards.toNat.testBit (shift.toNat % 32 + 5) = false := by
      have htest := congrArg (Nat.testBit · (shift.toNat % 32 + 5)) hand
      simpa only [Nat.testBit_and, Nat.testBit_two_pow_self, Bool.and_true, Nat.zero_testBit] using htest
    rw [Nat.testBit_eq_decide_div_mod_eq, Nat.pow_add, ← Nat.div_div_eq_div_mul] at hfalse
    have hne := of_decide_eq_false hfalse
    omega
  unfold addressWildcards
  rw [UInt32.toNat_and, UInt32.toNat_shiftRight, Nat.shiftRight_eq_div_pow,
    show (63 : UInt32).toNat = 2 ^ 6 - 1 from rfl,
    Nat.and_two_pow_sub_one_eq_mod]
  omega

theorem map_firstBit {n : ℕ} (hn : n < 32) {f : IPv4 → UInt32} {o o' : Option IPv4}
    (h : o'.map (fun ip => (f ip).toNat / 2 ^ n) = o.map fun ip => (f ip).toNat / 2 ^ n) :
    o'.map (fun ip => (f ip).toNat / 2 ^ 31) = o.map fun ip => (f ip).toNat / 2 ^ 31 := by
  have hsplit : (fun ip => (f ip).toNat / 2 ^ 31) = (· / 2 ^ (31 - n)) ∘ fun ip => (f ip).toNat / 2 ^ n := by
    funext ip
    rw [Function.comp_apply, Nat.div_div_eq_div_mul, ← Nat.pow_add, Nat.add_sub_cancel' (by omega)]
  rw [hsplit, ← Option.map_map, h, Option.map_map]

/-- A field is the same if its wildcards are cleared. -/
theorem Agrees.sameIn (h : Agrees wildcards inPort inPort' packet packet') {field : HeaderField}
    (hfield : wildcards &&& field.bits = 0) : SameIn inPort inPort' packet packet' field := by
  cases field with
  | inPort => exact h.inPort hfield
  | dlSrc => exact h.dlSrc hfield
  | dlDst => exact h.dlDst hfield
  | dlType => exact h.dlType hfield
  | nwSrc =>
    have hlt : addressWildcards wildcards ofpfwNwSrcShift < 32 := addressWildcards_lt rfl hfield
    exact map_firstBit hlt (h.nwSrc hlt)
  | nwDst =>
    have hlt : addressWildcards wildcards ofpfwNwDstShift < 32 := addressWildcards_lt rfl hfield
    exact map_firstBit hlt (h.nwDst hlt)
  | nwProto => exact h.nwProto hfield
  | tpSrc => exact h.tpSrc hfield
  | tpDst => exact h.tpDst hfield

/-! ## Rules that are stopped -/

/-- The rule is for IPv4. -/
def ForIPv4 (r : FirewallRule) : Prop := r.wildcardDlType = false ∧ r.dlType = Ethernet.typeIPv4

/-- The protocols a rule is tested for. -/
def protocolOf (nwProto : Int16) : Option UInt8 :=
  if nwProto = 0x6 then some IPv4.protocolTcp
  else if nwProto = 0x11 then some IPv4.protocolUdp
  else if nwProto = 0x1 then some IPv4.protocolIcmp
  else none

/-- The rule is for a protocol with ports. -/
def ForPorts (r : FirewallRule) : Prop :=
  r.ForIPv4 ∧ r.wildcardNwProto = false ∧ (r.nwProto = 0x6 ∨ r.nwProto = 0x11)

/-- The test of the field is not passed, and that of an address because of the first bit. -/
def Fails (r : FirewallRule) (inPort : OFPort) (packet : Ethernet) : HeaderField → Prop
  | .inPort => ¬r.InPortMatches inPort
  | .dlSrc => r.wildcardDlSrc = false ∧ r.dlSrc ≠ packet.sourceMACAddress.toLong
  | .dlDst => r.wildcardDlDst = false ∧ r.dlDst ≠ packet.destinationMACAddress.toLong
  | .dlType => r.wildcardDlType = false ∧ packet.etherType ≠ r.dlType
  | .nwSrc => r.ForIPv4 ∧ r.wildcardNwSrc = false ∧ ∃ bit, (ipv4Of packet).map (·.sourceAddress.toNat / 2 ^ 31) = some bit ∧
      r.nwSrcPrefix.toUInt32.toNat / 2 ^ 31 ≠ bit
  | .nwDst => r.ForIPv4 ∧ r.wildcardNwDst = false ∧
      ∃ bit, (ipv4Of packet).map (·.destinationAddress.toNat / 2 ^ 31) = some bit ∧
        r.nwDstPrefix.toUInt32.toNat / 2 ^ 31 ≠ bit
  | .nwProto => r.ForIPv4 ∧ r.wildcardNwProto = false ∧ ∃ number protocol, protocolOf r.nwProto = some number ∧
      (ipv4Of packet).map IPv4.protocol = some protocol ∧ protocol ≠ number
  | .tpSrc => r.ForPorts ∧ r.tpSrc ≠ 0 ∧
      ∃ port, ((ipv4Of packet).bind portsOf).map Prod.fst = some port ∧ r.tpSrc ≠ port.toInt16
  | .tpDst => r.ForPorts ∧ r.tpDst ≠ 0 ∧
      ∃ port, ((ipv4Of packet).bind portsOf).map Prod.snd = some port ∧ r.tpDst ≠ port.toInt16

theorem Fails.congr {field : HeaderField} (h : r.Fails inPort packet field)
    (hsame : SameIn inPort inPort' packet packet' field) : r.Fails inPort' packet' field := by
  cases field with
  | inPort => rw [show inPort' = inPort from hsame]; exact h
  | dlSrc => exact ⟨h.1, (show packet'.sourceMACAddress = _ from hsame) ▸ h.2⟩
  | dlDst => exact ⟨h.1, (show packet'.destinationMACAddress = _ from hsame) ▸ h.2⟩
  | dlType => exact ⟨h.1, (show packet'.etherType = _ from hsame) ▸ h.2⟩
  | nwSrc => exact ⟨h.1, h.2.1, hsame.symm ▸ h.2.2⟩
  | nwDst => exact ⟨h.1, h.2.1, hsame.symm ▸ h.2.2⟩
  | nwProto => exact ⟨h.1, h.2.1, hsame.symm ▸ h.2.2⟩
  | tpSrc => exact ⟨h.1, h.2.1, hsame.symm ▸ h.2.2⟩
  | tpDst => exact ⟨h.1, h.2.1, hsame.symm ▸ h.2.2⟩

/-- Addresses with different first bits differ in every prefix that is compared. -/
theorem not_matchIPAddress {rulePrefix maskbits : Int32} {address : UInt32}
    (h : rulePrefix.toUInt32.toNat / 2 ^ 31 ≠ address.toNat / 2 ^ 31) :
    matchIPAddress rulePrefix maskbits address.toInt32 ≠ true := by
  intro hmatch
  unfold matchIPAddress at hmatch
  dsimp only at hmatch
  split_ifs at hmatch
  · have hdistance : ∀ x : BitVec 32, (x.smod 32).toNat < 32 := by
      intro x
      have hsmod : (x.smod 32).toInt = x.toInt.fmod 32 := BitVec.toInt_smod
      have hle : 0 ≤ x.toInt.fmod 32 := Int.fmod_nonneg_of_pos _ (by decide)
      have hlt : x.toInt.fmod 32 < 32 := Int.fmod_lt_of_pos _ (by decide)
      rw [BitVec.toInt_eq_toNat_cond] at hsmod
      split_ifs at hsmod <;> omega
    have hbits := congrArg Int32.toBitVec (of_decide_eq_true hmatch)
    have hlt := hdistance (32 - maskbits).toBitVec
    have hprefix := (shifted_eq_iff rulePrefix.toBitVec address.toBitVec
      ((32 - maskbits).toBitVec.smod 32).toNat).1 hbits
    refine h ?_
    have hdiv := congrArg (· / 2 ^ (31 - ((32 - maskbits).toBitVec.smod 32).toNat)) hprefix
    simp only [Nat.div_div_eq_div_mul, ← Nat.pow_add] at hdiv
    rw [Nat.add_sub_cancel' (by omega)] at hdiv
    exact hdiv
  · rw [of_decide_eq_true hmatch] at h
    exact h rfl

theorem typeIPv4_ne : Ethernet.typeIPv4 ≠ Ethernet.typeArp := by decide

theorem typeTested_iff (h : r.ForIPv4) : r.TypeTested packet ↔ packet.etherType = Ethernet.typeIPv4 ∧
    ∀ ip, packet.payload = some (.ipv4 ip) → r.IPv4Tested ip := by
  unfold TypeTested
  rw [if_neg (by simp [h.1]), if_neg (h.2 ▸ typeIPv4_ne), if_pos h.2]

theorem protocol_of_tested {number : UInt8} (hnumber : protocolOf r.nwProto = some number) (h : r.ProtocolTested ip) :
    ip.protocol = number := by
  unfold protocolOf at hnumber
  unfold ProtocolTested at h
  split_ifs at hnumber h <;> cases hnumber
  · exact h.1
  · exact h.1
  · exact h

theorem ports_of_tested (hnumber : r.nwProto = 0x6 ∨ r.nwProto = 0x11) (h : r.ProtocolTested ip)
    {ports : UInt16 × UInt16} (hports : portsOf ip = some ports) : r.PortsTested ports := by
  unfold ProtocolTested at h
  obtain htcp | hudp := hnumber
  · rw [if_pos htcp] at h
    exact h.2 ports hports
  · rw [if_neg (by rw [hudp]; decide), if_pos hudp] at h
    exact h.2 ports hports

/-- A rule does not match a packet that fails one of its tests. -/
theorem Fails.not_flowTested (hpacket : TypedFrame packet) {field : HeaderField} (h : r.Fails inPort packet field) :
    ¬r.FlowTested switchDpid inPort packet := by
  rintro ⟨-, hport, hmacs, htype⟩
  have hipv4 : r.ForIPv4 → ∃ ip, ipv4Of packet = some ip ∧ r.IPv4Tested ip := by
    intro hfor
    obtain ⟨heth, htested⟩ := (typeTested_iff hfor).1 htype
    obtain ⟨ip, hpayload, -⟩ := hpacket heth
    exact ⟨ip, by unfold ipv4Of; rw [hpayload], htested ip hpayload⟩
  cases field with
  | inPort => exact h hport
  | dlSrc => exact h.2 (hmacs.1 h.1)
  | dlDst => exact h.2 (hmacs.2 h.1)
  | dlType =>
    unfold TypeTested at htype
    rw [if_neg (by simp [h.1])] at htype
    split_ifs at htype with harp hfor
    · exact h.2 (htype.trans harp.symm)
    · exact h.2 (htype.1.trans hfor.symm)
  | nwSrc =>
    obtain ⟨hfor, hwildcard, bit, hbit, hne⟩ := h
    obtain ⟨ip, hip, htested⟩ := hipv4 hfor
    rw [hip, Option.map_some, Option.some.injEq] at hbit
    exact not_matchIPAddress (hbit ▸ hne) (htested.1 hwildcard)
  | nwDst =>
    obtain ⟨hfor, hwildcard, bit, hbit, hne⟩ := h
    obtain ⟨ip, hip, htested⟩ := hipv4 hfor
    rw [hip, Option.map_some, Option.some.injEq] at hbit
    exact not_matchIPAddress (hbit ▸ hne) (htested.2.1 hwildcard)
  | nwProto =>
    obtain ⟨hfor, hwildcard, number, protocol, hnumber, hprotocol, hne⟩ := h
    obtain ⟨ip, hip, htested⟩ := hipv4 hfor
    rw [hip, Option.map_some, Option.some.injEq] at hprotocol
    exact hne (hprotocol.symm.trans (protocol_of_tested hnumber (htested.2.2 hwildcard)))
  | tpSrc =>
    obtain ⟨⟨hfor, hwildcard, hnumber⟩, hne, port, hport, hne'⟩ := h
    obtain ⟨ip, hip, htested⟩ := hipv4 hfor
    rw [hip, Option.bind_some, Option.map_eq_some_iff] at hport
    obtain ⟨ports, hports, rfl⟩ := hport
    exact (ports_of_tested hnumber (htested.2.2 hwildcard) hports).1.elim hne hne'
  | tpDst =>
    obtain ⟨⟨hfor, hwildcard, hnumber⟩, hne, port, hport, hne'⟩ := h
    obtain ⟨ip, hip, htested⟩ := hipv4 hfor
    rw [hip, Option.bind_some, Option.map_eq_some_iff] at hport
    obtain ⟨ports, hports, rfl⟩ := hport
    exact (ports_of_tested hnumber (htested.2.2 hwildcard) hports).2.elim hne hne'

/-! ## Fields that are named -/

theorem shiftLeft_and_eq_zero (m : UInt32) {shift bits : UInt32} (hshift : 8 ≤ (shift.toBitVec % 32).toNat)
    (hbits : bits.toNat < 2 ^ 8) : m <<< shift &&& bits = 0 := by
  refine UInt32.toBitVec_inj.1 (BitVec.eq_of_getLsbD_eq fun i hi => ?_)
  rw [UInt32.toBitVec_and, UInt32.toBitVec_shiftLeft, BitVec.getLsbD_and, BitVec.shiftLeft_eq',
    BitVec.getLsbD_shiftLeft]
  by_cases hlow : i < 8
  · rw [decide_eq_true (hlow.trans_le hshift), Bool.not_true, Bool.and_false, Bool.false_and, Bool.false_and]
    exact BitVec.getLsbD_zero.symm
  · have hfalse : bits.toBitVec.getLsbD i = false :=
      Nat.testBit_lt_two_pow (hbits.trans_le (Nat.pow_le_pow_right (by decide) (Nat.not_lt.1 hlow)))
    rw [hfalse, Bool.and_false]
    exact BitVec.getLsbD_zero.symm

/-- Mask bits are above the wildcards of the other fields. -/
theorem leavesOut_of_lt (hbits : bits.toNat < 2 ^ 8) : r.LeavesOut bits :=
  ⟨shiftLeft_and_eq_zero _ (by decide) hbits, shiftLeft_and_eq_zero _ (by decide) hbits⟩

/-- A rule of the action gets past the test of the field, and no mask bits are for a whole address. -/
def Kept (examined : List FirewallRule) (a : FirewallAction) (switchDpid : Dpid) (inPort : OFPort)
    (packet : Ethernet) (field : HeaderField) : Prop :=
  (∃ r ∈ examined, r.action = a ∧ r.Passed switchDpid inPort packet field) ∧
    ∀ r ∈ examined, r.action = a → r.LeavesOut field.bits

/-- The rule compares the first bits of addresses only, and they are kept. -/
def AddressesKept (r : FirewallRule) (kept : HeaderField → Prop) : Prop :=
  r.ForIPv4 → (r.wildcardNwSrc = false → r.nwSrcMaskbits = 1 ∧ kept .nwSrc) ∧
    (r.wildcardNwDst = false → r.nwDstMaskbits = 1 ∧ kept .nwDst)

variable {examined : List FirewallRule}

theorem kept_of_passed (hr : r ∈ examined) {field : HeaderField} (hbits : field.bits.toNat < 2 ^ 8)
    (h : r.Passed switchDpid inPort packet field) : Kept examined r.action switchDpid inPort packet field :=
  ⟨⟨r, hr, rfl, h⟩, fun _ _ _ => leavesOut_of_lt hbits⟩

theorem addressTested_congr {wildcard : Bool} {rulePrefix maskbits : Int32} {address address' : UInt32}
    (h : AddressTested wildcard rulePrefix maskbits address)
    (hsame : wildcard = false → maskbits = 1 ∧ address'.toNat / 2 ^ 31 = address.toNat / 2 ^ 31) :
    AddressTested wildcard rulePrefix maskbits address' := by
  intro hwildcard
  obtain ⟨rfl, hbit⟩ := hsame hwildcard
  have hcontains := (matchIPAddress_iff (by decide)).1 (h hwildcard)
  exact (matchIPAddress_iff (by decide)).2 (hcontains.trans hbit.symm)

theorem typeTested_congr_of_not_forIPv4 (h : ¬r.ForIPv4) (htype : packet'.etherType = packet.etherType)
    (htested : r.TypeTested packet) : r.TypeTested packet' := by
  unfold TypeTested at htested ⊢
  split_ifs at htested ⊢ with hwildcard harp hfor
  · exact htype.trans htested
  · exact absurd ⟨Bool.eq_false_iff.2 hwildcard, hfor⟩ h

/-- A packet of the same protocol and, where they are compared, with the same ports. -/
theorem protocolTested_congr {ip' : IPv4} (hip : Typed ip) (hprotocol : ip'.protocol = ip.protocol)
    (hports : ∀ ports, r.AtPorts ip ports → r.PortsTested ports →
      ∀ ports', portsOf ip' = some ports' → ports' = ports)
    (hwildcard : r.wildcardNwProto = false) (h : r.ProtocolTested ip) : r.ProtocolTested ip' := by
  unfold ProtocolTested at h ⊢
  split_ifs at h ⊢ with htcp hudp hicmp
  · obtain ⟨ports, hof⟩ := exists_ports hip (.inl h.1)
    refine ⟨hprotocol.trans h.1, fun ports' hof' => ?_⟩
    rw [hports ports ⟨hwildcard, hof, .inl ⟨htcp, h.1⟩⟩ (h.2 ports hof) ports' hof']
    exact h.2 ports hof
  · obtain ⟨ports, hof⟩ := exists_ports hip (.inr h.1)
    refine ⟨hprotocol.trans h.1, fun ports' hof' => ?_⟩
    rw [hports ports ⟨hwildcard, hof, .inr ⟨hudp, h.1⟩⟩ (h.2 ports hof) ports' hof']
    exact h.2 ports hof
  · exact hprotocol.trans h

/-- The deciding rule matches every packet that is the same in the fields that are kept. -/
theorem FlowTested.congr (hpacket : TypedFrame packet) (hr : r ∈ examined)
    (h : r.FlowTested switchDpid inPort packet)
    (haddresses : r.AddressesKept (Kept examined r.action switchDpid inPort packet))
    (hsame : ∀ field, Kept examined r.action switchDpid inPort packet field →
      SameIn inPort inPort' packet packet' field) : r.FlowTested switchDpid inPort' packet' := by
  obtain ⟨hswitch, hport, hmacs, htype⟩ := h
  have hpassed : ∀ field : HeaderField, field.bits.toNat < 2 ^ 8 → r.Passed switchDpid inPort packet field →
      SameIn inPort inPort' packet packet' field :=
    fun field hbits hfield => hsame field (kept_of_passed hr hbits hfield)
  have hport' : inPort' = inPort := hpassed .inPort (by decide) ⟨hswitch, hport⟩
  have hdlSrc : packet'.sourceMACAddress = packet.sourceMACAddress :=
    hpassed .dlSrc (by decide) ⟨hswitch, hport, hmacs.1⟩
  have hdlDst : packet'.destinationMACAddress = packet.destinationMACAddress :=
    hpassed .dlDst (by decide) ⟨hswitch, hport, hmacs⟩
  have hdlType : packet'.etherType = packet.etherType :=
    hpassed .dlType (by decide) ⟨hswitch, hport, hmacs, htype⟩
  refine ⟨hswitch, hport' ▸ hport, ⟨hdlSrc ▸ hmacs.1, hdlDst ▸ hmacs.2⟩, ?_⟩
  by_cases hfor : r.ForIPv4
  · obtain ⟨heth, htested⟩ := (typeTested_iff hfor).1 htype
    obtain ⟨ip, hpayload, hip⟩ := hpacket heth
    obtain ⟨hsrc, hdst, hprotocol⟩ := htested ip hpayload
    have hat : r.AtIPv4 packet ip := ⟨hfor.1, hfor.2, heth, hpayload⟩
    have hof : ipv4Of packet = some ip := by unfold ipv4Of; rw [hpayload]
    refine (typeTested_iff hfor).2 ⟨hdlType.trans heth, fun ip' hpayload' => ?_⟩
    have hof' : ipv4Of packet' = some ip' := by unfold ipv4Of; rw [hpayload']
    have hnwProto := hpassed .nwProto (by decide) ⟨hswitch, hport, hmacs, ip, hat⟩
    have htpSrc := fun ports hports htpSrc => hpassed .tpSrc (by decide)
      ⟨hswitch, hport, hmacs, ip, hat, ⟨hsrc, hdst⟩, ports, hports, htpSrc⟩
    have htpDst := fun ports hports htested => hpassed .tpDst (by decide)
      ⟨hswitch, hport, hmacs, ip, hat, ⟨hsrc, hdst⟩, ports, hports, htested⟩
    have hbits := haddresses hfor
    have hnwSrc := fun hw => hsame .nwSrc (hbits.1 hw).2
    have hnwDst := fun hw => hsame .nwDst (hbits.2 hw).2
    simp only [SameIn, hof, hof', Option.map_some, Option.bind_some, Option.some.injEq]
      at hnwProto htpSrc htpDst hnwSrc hnwDst
    refine ⟨addressTested_congr hsrc fun hw => ⟨(hbits.1 hw).1, hnwSrc hw⟩,
      addressTested_congr hdst fun hw => ⟨(hbits.2 hw).1, hnwDst hw⟩, fun hw => ?_⟩
    refine protocolTested_congr hip hnwProto (fun ports hports htested ports' hof' => ?_) hw (hprotocol hw)
    have hfst := htpSrc ports hports htested.1
    have hsnd := htpDst ports hports htested
    rw [hof', hports.2.1, Option.map_some, Option.map_some, Option.some.injEq] at hfst hsnd
    exact Prod.ext hfst hsnd
  · exact typeTested_congr_of_not_forIPv4 hfor hdlType htype

/-- The rule is for another switch, or for a type that is not supported, or it fails the test of a field that is
kept. -/
def Stopped (r : FirewallRule) (kept : HeaderField → Prop) (switchDpid : Dpid) (inPort : OFPort)
    (packet : Ethernet) : Prop :=
  ¬r.SwitchMatches switchDpid ∨
  (r.wildcardDlType = false ∧ r.dlType ≠ Ethernet.typeArp ∧ r.dlType ≠ Ethernet.typeIPv4) ∨
  ∃ field, kept field ∧ r.Fails inPort packet field

/-- A rule that is stopped matches no packet that is the same in the fields that are kept. -/
theorem Stopped.not_flowTested {kept : HeaderField → Prop} (h : r.Stopped kept switchDpid inPort packet)
    (hpacket' : TypedFrame packet') (hsame : ∀ field, kept field → SameIn inPort inPort' packet packet' field) :
    ¬r.FlowTested switchDpid inPort' packet' := by
  obtain hswitch | ⟨hwildcard, harp, hipv4⟩ | ⟨field, hkept, hfails⟩ := h
  · exact fun htested => hswitch htested.1
  · rintro ⟨-, -, -, htype⟩
    unfold TypeTested at htype
    rwa [if_neg (by simp [hwildcard]), if_neg harp, if_neg hipv4] at htype
  · exact (hfails.congr (hsame field hkept)).not_flowTested hpacket'

theorem hasNumber_of_matchesFlow {b : Bool} {w' : WildcardsPair}
    (h : r.matchesFlow switchDpid inPort packet w = .ok (b, w')) : r.HasNumber switchDpid inPort := by
  by_contra hport
  obtain ⟨e, he⟩ := matchesFlow_error packet hport w
  cases h.symm.trans he

theorem flowTested_iff (hpacket : TypedFrame packet) {b : Bool} {w' : WildcardsPair}
    (h : r.matchesFlow switchDpid inPort packet w = .ok (b, w')) :
    b = true ↔ r.FlowTested switchDpid inPort packet := by
  obtain ⟨b', w'', hb, hiff⟩ := answers_matchesFlow hpacket (hasNumber_of_matchesFlow h) w
  rw [h] at hb
  cases hb
  exact hiff

end FirewallRule

namespace OFMFirewall

open FirewallRule

/-! ## Decisions -/

open Classical in
/-- The rules up to the first one that has a property. -/
noncomputable def examined (P : FirewallRule → Prop) : List FirewallRule → List FirewallRule
  | [] => []
  | r :: rules => if P r then [r] else r :: examined P rules

theorem examined_append {P : FirewallRule → Prop} {before after : List FirewallRule} {k : FirewallRule}
    (hbefore : ∀ r ∈ before, ¬P r) (hk : P k) : examined P (before ++ k :: after) = before ++ [k] := by
  induction before with
  | nil => exact if_pos hk
  | cons r before ih =>
    rw [List.forall_mem_cons] at hbefore
    rw [List.cons_append, examined, if_neg hbefore.1, ih hbefore.2, List.cons_append]

open Classical in
theorem IsFirst.find_eq {P : FirewallRule → Prop} {rules : List FirewallRule} {o : Option FirewallRule}
    (h : IsFirst P rules o) : rules.find? (P ·) = o := by
  cases o with
  | none => exact List.find?_eq_none.2 fun r hr => by simpa using h r hr
  | some k =>
    obtain ⟨before, after, rfl, hk, hbefore⟩ := h
    refine List.find?_eq_some_iff_append.2 ⟨decide_eq_true hk, before, after, rfl, fun r hr => ?_⟩
    simpa using hbefore r hr

theorem IsFirst.unique {P : FirewallRule → Prop} {rules : List FirewallRule} {o o' : Option FirewallRule}
    (h : IsFirst P rules o) (h' : IsFirst P rules o') : o = o' := h.find_eq.symm.trans h'.find_eq

/-- What is decided. -/
def verdict (o : Option FirewallRule) : FirewallAction := o.elim .deny FirewallRule.action

variable {switchDpid : Dpid} {inPort inPort' : OFPort} {packet packet' : Ethernet} {rules before : List FirewallRule}
  {r : FirewallRule} {o : Option FirewallRule} {w w' : WildcardsPair} {a : FirewallAction}

/-- A run of the loop that does not throw starts with a rule that does not. -/
theorem matchLoop_cons_ok (h : matchLoop switchDpid inPort packet (r :: rules) w = .ok (o, w')) :
    ∃ b w'', r.matchesFlow switchDpid inPort packet w = .ok (b, w'') ∧
      (if b then .ok (some r, w'') else matchLoop switchDpid inPort packet rules w'') = .ok (o, w') := by
  cases hr : r.matchesFlow switchDpid inPort packet w with
  | error e =>
    have hrun : (r.matchesFlow switchDpid inPort packet w >>= fun p =>
      (if p.1 then pure (some r) else matchLoop switchDpid inPort packet rules) p.2) = .ok (o, w') := h
    rw [hr] at hrun
    cases hrun
  | ok p => exact ⟨p.1, p.2, rfl, (matchLoop_cons hr).symm.trans h⟩

theorem isFirst_of_matchLoop (hpacket : TypedFrame packet)
    (h : matchLoop switchDpid inPort packet rules w = .ok (o, w')) :
    IsFirst (FlowTested · switchDpid inPort packet) rules o := by
  induction rules generalizing w with
  | nil =>
    cases h
    exact List.forall_mem_nil _
  | cons r rules ih =>
    obtain ⟨b, w'', hr, hrest⟩ := matchLoop_cons_ok h
    have hiff := flowTested_iff hpacket hr
    cases b with
    | true =>
      cases hrest
      exact isFirst_cons_of_pos (hiff.1 rfl)
    | false => exact (ih hrest).cons_of_neg fun htested => nomatch hiff.2 htested

/-- A field that is kept has no wildcards in the end. -/
theorem lacks_of_kept (hpacket : TypedFrame packet) (h : matchLoop switchDpid inPort packet rules w = .ok (o, w'))
    {field : HeaderField}
    (hleaves : ∀ r ∈ examined (FlowTested · switchDpid inPort packet) rules, r.action = a → r.LeavesOut field.bits)
    (hpassed : Lacks a field.bits w ∨ ∃ r ∈ examined (FlowTested · switchDpid inPort packet) rules,
      r.action = a ∧ r.Passed switchDpid inPort packet field) : Lacks a field.bits w' := by
  induction rules generalizing w with
  | nil =>
    cases h
    exact hpassed.elim id fun ⟨r, hr, _⟩ => nomatch hr
  | cons r rules ih =>
    obtain ⟨b, w'', hr, hrest⟩ := matchLoop_cons_ok h
    have hiff := flowTested_iff hpacket hr
    have hself : r ∈ examined (FlowTested · switchDpid inPort packet) (r :: rules) := by
      unfold examined
      split_ifs <;> exact List.mem_cons_self
    have hhead : Lacks a field.bits w ∨ r.action = a ∧ r.Passed switchDpid inPort packet field →
        Lacks a field.bits w'' := by
      rintro (hw | ⟨rfl, hfield⟩)
      · exact keeps_matchesFlow switchDpid inPort packet (hleaves r hself) w b w'' hr hw
      · exact makes_matchesFlow hpacket (hleaves r hself rfl) hfield w b w'' hr
    unfold examined at hleaves hpassed
    cases b with
    | true =>
      rw [if_pos (hiff.1 rfl)] at hpassed
      cases hrest
      refine hhead (hpassed.imp_right fun ⟨r', hr', hpassed⟩ => ?_)
      exact List.mem_singleton.1 hr' ▸ hpassed
    | false =>
      rw [if_neg fun htested => nomatch hiff.2 htested] at hpassed hleaves
      refine ih hrest (fun r' hr' => hleaves r' (List.mem_cons_of_mem _ hr')) ?_
      obtain hw | ⟨r', hr', hpassed⟩ := hpassed
      · exact .inl (hhead (.inl hw))
      · obtain rfl | hr' := List.mem_cons.1 hr'
        · exact .inl (hhead (.inr hpassed))
        · exact .inr ⟨r', hr', hpassed⟩

/-- If the loop decides on a packet behind some rules, and none of these decides otherwise, it decides so. -/
theorem matchLoop_append (hpacket : TypedFrame packet) (hnumber : ∀ r ∈ before, r.HasNumber switchDpid inPort)
    (hbefore : ∀ r ∈ before, r.FlowTested switchDpid inPort packet → r.action = a)
    (hrules : ∀ w, ∃ o w', matchLoop switchDpid inPort packet rules w = .ok (o, w') ∧ verdict o = a) :
    ∃ o w', matchLoop switchDpid inPort packet (before ++ rules) w = .ok (o, w') ∧ verdict o = a := by
  induction before generalizing w with
  | nil => exact hrules w
  | cons r before ih =>
    rw [List.forall_mem_cons] at hnumber hbefore
    obtain ⟨b, w', hr, hiff⟩ := answers_matchesFlow hpacket hnumber.1 w
    rw [List.cons_append, matchLoop_cons hr]
    cases b with
    | true => exact ⟨some r, w', rfl, hbefore.1 (hiff.1 rfl)⟩
    | false => exact ih hnumber.2 hbefore.2

theorem hasNumber_of_matchLoop {k : FirewallRule}
    (h : matchLoop switchDpid inPort packet (before ++ k :: rules) w = .ok (o, w'))
    (hpacket : TypedFrame packet) (hbefore : ∀ r ∈ before, ¬r.FlowTested switchDpid inPort packet) :
    ∀ r ∈ before ++ [k], r.HasNumber switchDpid inPort := by
  induction before generalizing w with
  | nil =>
    obtain ⟨b, w'', hk, -⟩ := matchLoop_cons_ok h
    exact List.forall_mem_singleton.2 (hasNumber_of_matchesFlow hk)
  | cons r before ih =>
    rw [List.forall_mem_cons] at hbefore
    obtain ⟨b, w'', hr, hrest⟩ := matchLoop_cons_ok h
    refine List.forall_mem_cons.2 ⟨hasNumber_of_matchesFlow hr, ih (w := w'') ?_ hbefore.2⟩
    cases b with
    | true => exact absurd ((flowTested_iff hpacket hr).1 rfl) hbefore.1
    | false => exact hrest

/-- The decision on a packet, with its wildcards. -/
theorem matchWithRule_ok {fw : OFMFirewall} {ret : RuleWildcardsPair}
    (h : fw.matchWithRule switchDpid inPort packet = .ok ret) :
    ∃ o w, matchLoop switchDpid inPort packet fw.rules {} = .ok (o, w) ∧ ret.decision = verdict o ∧
      ret.wildcards = w.of (verdict o) := by
  unfold matchWithRule at h
  cases hloop : matchLoop switchDpid inPort packet fw.rules {} with
  | error e => rw [hloop] at h; cases h
  | ok p =>
    obtain ⟨o, w⟩ := p
    rw [hloop] at h
    cases o with
    | none => cases h; exact ⟨none, w, rfl, rfl, rfl⟩
    | some k =>
      cases h
      refine ⟨some k, w, rfl, rfl, ?_⟩
      show _ = w.of k.action
      cases k.action <;> rfl

theorem decision_of_matchLoop {fw : OFMFirewall} (h : matchLoop switchDpid inPort packet fw.rules {} = .ok (o, w)) :
    ∃ ret, fw.matchWithRule switchDpid inPort packet = .ok ret ∧ ret.decision = verdict o := by
  unfold matchWithRule
  rw [h]
  cases o with
  | none => exact ⟨_, rfl, rfl⟩
  | some k => exact ⟨_, rfl, rfl⟩

/-! ## Decisions that hold of packets that agree -/

/-- Every packet that differs in wildcards only is decided on in the same way. -/
def DecidesAlike (fw : OFMFirewall) (switchDpid : Dpid) (inPort : OFPort) (packet : Ethernet) : Prop :=
  ∀ ret, fw.matchWithRule switchDpid inPort packet = .ok ret →
    ∀ inPort' data' packet', Ethernet.deserialize data' 0 data'.length = .ok (some packet') →
      Agrees ret.wildcards inPort inPort' packet packet' →
        ∃ ret', fw.matchWithRule switchDpid inPort' packet' = .ok ret' ∧ ret'.decision = ret.decision

/-- The rules of the other action are stopped at fields that are kept: those that are looked at, if the deciding
rule compares no address or one of length 1, or else all of them, if the packet is denied. -/
def Separated (fw : OFMFirewall) (switchDpid : Dpid) (inPort : OFPort) (packet : Ethernet) : Prop :=
  ∃ o, IsFirst (FlowTested · switchDpid inPort packet) fw.rules o ∧
    let looked := examined (FlowTested · switchDpid inPort packet) fw.rules
    let kept := Kept looked (verdict o) switchDpid inPort packet
    (∃ k, o = some k ∧ k.AddressesKept kept ∧
      ∀ r ∈ looked, r.action ≠ k.action → r.Stopped kept switchDpid inPort packet) ∨
    (verdict o = .deny ∧ (∀ r ∈ fw.rules, r.action = .allow → r.Stopped kept switchDpid inPort packet) ∧
      ((kept .inPort ∧ ∀ r ∈ fw.rules, r.HasNumber switchDpid inPort) ∨
        ∀ r ∈ fw.rules, r.SwitchMatches switchDpid → r.wildcardInPort = true))

theorem decidesAlike_of_separated {fw : OFMFirewall} {data : List UInt8}
    (hdecode : Ethernet.deserialize data 0 data.length = .ok (some packet))
    (h : fw.Separated switchDpid inPort packet) : fw.DecidesAlike switchDpid inPort packet := by
  have hpacket := typedFrame_of_deserialize hdecode
  intro ret hret inPort' data' packet' hdecode' hagrees
  have hpacket' := typedFrame_of_deserialize hdecode'
  obtain ⟨o, w, hloop, hdecision, hwildcards⟩ := matchWithRule_ok hret
  obtain ⟨o', hfirst, hsep⟩ := h
  obtain rfl : o' = o := hfirst.unique (isFirst_of_matchLoop hpacket hloop)
  have hsame : ∀ field, Kept (examined (FlowTested · switchDpid inPort packet) fw.rules) (verdict o') switchDpid inPort
      packet field → SameIn inPort inPort' packet packet' field := by
    intro field hkept
    have hlacks := lacks_of_kept hpacket hloop hkept.2 (.inr hkept.1)
    exact hagrees.sameIn (hwildcards ▸ hlacks)
  have hrun : ∃ o w', matchLoop switchDpid inPort' packet' fw.rules {} = .ok (o, w') ∧ verdict o = verdict o' := by
    obtain ⟨k, rfl, haddresses, hstopped⟩ | ⟨hdeny, hstopped, hports⟩ := hsep
    · obtain ⟨before, after, hrules, hk, hbefore⟩ := hfirst
      have hexamined : examined (FlowTested · switchDpid inPort packet) fw.rules = before ++ [k] := by
        rw [hrules, examined_append hbefore hk]
      rw [hexamined] at haddresses hstopped hsame
      have hmem : k ∈ before ++ [k] := List.mem_append_right _ List.mem_cons_self
      have hpassed : k.Passed switchDpid inPort packet .inPort := ⟨hk.1, hk.2.1⟩
      have hport' : inPort' = inPort := hsame .inPort (kept_of_passed hmem (by decide) hpassed)
      have hk' : k.FlowTested switchDpid inPort' packet' := hk.congr hpacket hmem haddresses hsame
      have hnumber : ∀ r ∈ before ++ [k], r.HasNumber switchDpid inPort' := by
        rw [hport']
        rw [hrules] at hloop
        exact hasNumber_of_matchLoop hloop hpacket hbefore
      rw [List.forall_mem_append, List.forall_mem_singleton] at hnumber
      rw [hrules]
      refine matchLoop_append hpacket' hnumber.1 (fun r hr htested => ?_) fun w => ?_
      · by_contra hne
        exact (hstopped r (List.mem_append_left _ hr) hne).not_flowTested hpacket' hsame htested
      · obtain ⟨b, w', hb, hiff⟩ := answers_matchesFlow hpacket' hnumber.2 w
        obtain rfl : b = true := hiff.2 hk'
        exact ⟨some k, w', matchLoop_cons hb, rfl⟩
    · rw [← List.append_nil fw.rules, hdeny]
      refine matchLoop_append hpacket' (fun r hr => ?_) (fun r hr htested => ?_) fun w => ⟨none, w, rfl, rfl⟩
      · obtain ⟨hkept, hnumber⟩ | hnone := hports
        · rw [show inPort' = inPort from hsame .inPort hkept]
          exact hnumber r hr
        · exact fun hswitch hwildcard => nomatch (hnone r hr hswitch).symm.trans hwildcard
      · cases haction : r.action with
        | deny => rfl
        | allow => exact absurd htested ((hstopped r hr haction).not_flowTested hpacket' hsame)
  obtain ⟨o, w', hloop', ho⟩ := hrun
  obtain ⟨ret', hret', hdecision'⟩ := decision_of_matchLoop hloop'
  exact ⟨ret', hret', hdecision'.trans (ho.trans hdecision.symm)⟩

/-- A rule for what comes in on a port. -/
def forPort (inPort : Int16) (action : FirewallAction) : FirewallRule := { wildcardInPort := false, inPort, action }

/-- What comes in on port 1 is allowed, and with it what differs in wildcards only, behind a rule for port 2. -/
theorem decidesAlike_forPort : (OFMFirewall.mk [forPort 2 .deny, {}] ∅ none).DecidesAlike 1 1
    (Match.decodedEcho Ethernet.vlanUntagged) := by
  have hdecode : Ethernet.deserialize Match.untaggedEcho 0 Match.untaggedEcho.length =
      .ok (some (Match.decodedEcho Ethernet.vlanUntagged)) := rfl
  have hfail : (forPort 2 .deny).Fails 1 (Match.decodedEcho Ethernet.vlanUntagged) .inPort := fun h =>
    absurd (h rfl) (by decide)
  have hfirst : ∀ r ∈ [forPort 2 .deny], ¬r.FlowTested 1 1 (Match.decodedEcho Ethernet.vlanUntagged) := by
    simpa using hfail.not_flowTested (typedFrame_of_deserialize hdecode)
  have hall : ({} : FirewallRule).FlowTested 1 1 (Match.decodedEcho Ethernet.vlanUntagged) :=
    ⟨nofun, nofun, ⟨nofun, nofun⟩, trivial⟩
  refine decidesAlike_of_separated hdecode ⟨some {}, ⟨[forPort 2 .deny], [], rfl, hall, hfirst⟩, .inl ⟨{}, rfl, ?_⟩⟩
  rw [show [forPort 2 .deny, {}] = [forPort 2 .deny] ++ ({} : FirewallRule) :: [] from rfl, examined_append hfirst hall]
  have hpassed : ({} : FirewallRule).Passed 1 1 (Match.decodedEcho Ethernet.vlanUntagged) .inPort := ⟨nofun, nofun⟩
  refine ⟨nofun, fun r hr hne => ?_⟩
  obtain rfl | hr := List.mem_cons.1 hr
  · exact .inr (.inr ⟨.inPort, kept_of_passed (by simp) (by decide) hpassed, hfail⟩)
  · exact absurd (List.mem_singleton.1 hr ▸ rfl) hne

/-- A packet from port 2 is denied by a firewall that allows port 1, and the wildcards are for every packet. -/
theorem not_decidesAlike : ¬(OFMFirewall.mk [forPort 1 .allow] ∅ none).DecidesAlike 1 2
    (Match.decodedEcho Ethernet.vlanUntagged) := by
  intro h
  have hagrees : Agrees ofpfwAll 2 1 (Match.decodedEcho Ethernet.vlanUntagged)
      (Match.decodedEcho Ethernet.vlanUntagged) :=
    ⟨fun h => absurd h (by decide), fun _ => rfl, fun _ => rfl, fun _ => rfl, fun _ => rfl, fun _ => rfl,
      fun _ => rfl,
      fun _ => rfl, fun _ => rfl⟩
  obtain ⟨ret, hret, hdecision⟩ := h ⟨none, ofpfwAll⟩ rfl 1 Match.untaggedEcho _ rfl hagrees
  cases hret
  cases hdecision

end OFMFirewall

end Torpedo
