import Torpedo.Packet.Decoded
import Torpedo.Packet.Whole
import Torpedo.Util.TwoRuns

/-!
# What a decoder keeps of the bytes behind its own

`Data` copies the array up to its end and not the bytes that it was given only. All other decoders read their
own bytes; they keep what is behind them if they end in a packet of `Data`.
-/

namespace Torpedo

open Decoder

theorem Data.keepsBehind : KeepsBehind Data.deserialize fun _ => True := by
  intro data data' offset length h h' hslice
  have hsplit : ∀ data : List UInt8, offset + length ≤ data.length →
      data.drop offset = slice data offset length ++ data.drop (offset + length) := by
    intro data _
    unfold slice
    rw [← List.drop_drop, List.take_append_drop]
  unfold Data.deserialize
  rw [if_pos (by omega), if_pos (by omega), hsplit data h, hsplit data' h', hslice]
  simp

/-! ## ICMP -/

theorem ICMP.keepsBehind : KeepsBehind ICMP.deserialize ICMP.Whole := by
  refine keepsBehind_decode (d := fun data _ => _) fun length b b' ht => ?_
  have hlen := b.length_bytes
  apply Leaks.congr
  · apply reads_getByte.leaks ht
    apply reads_getByte.leaks ht
    apply reads_getShort.leaks ht
    apply leaks_rest ht Data.keepsBehind
    intro a a' h
    injection h with _ _ _ h
    exact Option.some.inj h
  · unfold ICMP.Whole
    simp only [and_true]
    omega

/-! ## TCP -/

theorem TCP.leaks_getOptions {α : Type} {k k' : Option (List UInt8) → Decoder α} {b b' : ByteBuffer} {m : ℕ}
    {K : Prop} (ht : ByteBuffer.Twins b b') (dataOffset : UInt8)
    (hk : ∀ options n, Leaks (k options) (k' options) (b.skip n) (b'.skip n) K) :
    Leaks (TCP.getOptions dataOffset >>= k) (TCP.getOptions dataOffset >>= k') (b.skip m) (b'.skip m) K := by
  unfold TCP.getOptions
  split_ifs
  · simp only [bind_assoc, pure_bind]
    apply leaks_remaining ht
    apply Leaks.congr
    · apply (reads_getBytes _).leaks ht
      exact hk _ _
    · exact and_iff_right (Nat.min_le_right _ _)
  · exact hk _ _

theorem TCP.keepsBehind : KeepsBehind TCP.deserialize TCP.Whole := by
  refine keepsBehind_decode (d := fun data _ => _) fun length b b' ht => ?_
  have hlen := b.length_bytes
  apply Leaks.congr
  · apply reads_getShort.leaks ht
    apply reads_getShort.leaks ht
    apply reads_getInt.leaks ht
    apply reads_getInt.leaks ht
    apply reads_getShort.leaks ht
    apply reads_getShort.leaks ht
    apply reads_getShort.leaks ht
    apply reads_getShort.leaks ht
    apply TCP.leaks_getOptions ht
    intro options n
    apply leaks_rest ht Data.keepsBehind
    intro a a' h
    injection h with _ _ _ _ _ _ _ _ _ _ h
    exact Option.some.inj h
  · unfold TCP.Whole
    simp only [and_true]
    omega

/-! ## DHCP -/

theorem DHCP.keepsBehind : KeepsBehind DHCP.deserialize fun _ => False := by
  obtain ⟨d, hd, heq⟩ := DHCP.exists_local
  rw [heq]
  exact hd.keepsBehind

/-! ## UDP -/

namespace UDP

/-- The payload is kept as it is, unless a port is one of DHCP. -/
def PayloadKeeps (destinationPort sourcePort : UInt16) (_ : List UInt8) : Prop :=
  if decodeMap destinationPort then False
  else if decodeMap sourcePort then False
  else True

def Keeps (bs : List UInt8) : Prop :=
  8 ≤ bs.length ∧ PayloadKeeps (shortAt bs 2) (shortAt bs 0) (bs.drop 8)

theorem keepsBehind_payload (destinationPort sourcePort : UInt16) :
    KeepsBehind (deserializePayload destinationPort sourcePort) (PayloadKeeps destinationPort sourcePort) :=
  (DHCP.keepsBehind.map fun _ _ => Payload.dhcp.inj).ite <|
    (DHCP.keepsBehind.map fun _ _ => Payload.dhcp.inj).ite (Data.keepsBehind.map fun _ _ => Payload.data.inj)

theorem keepsBehind : KeepsBehind deserialize Keeps := by
  refine keepsBehind_decode (d := fun data _ => _) fun length b b' ht => ?_
  have hlen := b.length_bytes
  apply Leaks.congr
  · apply reads_getShort.leaks ht
    apply reads_getShort.leaks ht
    apply reads_getShort.leaks ht
    apply reads_getShort.leaks ht
    apply leaks_rest ht (keepsBehind_payload _ _)
    intro a a' h
    injection h with _ _ _ _ h
    exact Option.some.inj h
  · unfold Keeps
    simp only [shortAt_drop, Nat.reduceAdd]
    constructor
    · rintro ⟨-, -, -, hlength, hpayload⟩
      exact ⟨by omega, hpayload⟩
    · rintro ⟨hlength, hpayload⟩
      exact ⟨by omega, by omega, by omega, by omega, hpayload⟩

end UDP

/-! ## IPv4 -/

namespace IPv4

def PayloadKeeps (protocol : UInt8) (bs : List UInt8) : Prop :=
  if protocol = protocolIcmp then ICMP.Whole bs
  else if protocol = protocolTcp then TCP.Whole bs
  else if protocol = protocolUdp then UDP.Keeps bs
  else True

def Keeps (bs : List UInt8) : Prop :=
  20 + optionsLength bs ≤ bs.length ∧
    PayloadKeeps (byteAt bs 9) (bs.drop (20 + optionsLength bs))

theorem keepsBehind_payload (protocol : UInt8) :
    KeepsBehind (deserializePayload protocol) (PayloadKeeps protocol) :=
  (ICMP.keepsBehind.map fun _ _ => Payload.icmp.inj).ite <|
    (TCP.keepsBehind.map fun _ _ => Payload.tcp.inj).ite <|
      (UDP.keepsBehind.map fun _ _ => Payload.udp.inj).ite (Data.keepsBehind.map fun _ _ => Payload.data.inj)

theorem keepsBehind : KeepsBehind deserialize Keeps := by
  refine keepsBehind_decode (d := fun data length => _) fun length b b' ht => ?_
  have hlen := b.length_bytes
  apply Leaks.congr
  · apply reads_getByte.leaks ht
    apply reads_getByte.leaks ht
    apply reads_getShort.leaks ht
    apply reads_getShort.leaks ht
    apply reads_getShort.leaks ht
    apply reads_getByte.leaks ht
    apply reads_getByte.leaks ht
    apply reads_getShort.leaks ht
    apply reads_getInt.leaks ht
    apply reads_getInt.leaks ht
    apply (reads_getOptions _).leaks ht
    apply leaks_rest ht (keepsBehind_payload _)
    intro a a' h
    injection h with _ _ _ _ _ _ _ _ _ _ _ _ _ _ h
    exact Option.some.inj h
  · unfold Keeps optionsLength
    simp only [byteAt_drop, Nat.reduceAdd]
    set n := ((byteAt b.bytes 0 &&& 0xf).toNat - 5) * 4
    by_cases hpayload : PayloadKeeps (byteAt b.bytes 9) (b.bytes.drop (20 + n))
    · simp only [hpayload, and_true]
      omega
    · simp only [hpayload, and_false]

end IPv4

/-! ## ARP -/

theorem ARP.keepsBehind : KeepsBehind ARP.deserialize fun _ => False := by
  refine Local.keepsBehind ?_
  exact reads_getShort.local.bind fun hardwareType => reads_getShort.local.bind fun protocolType =>
    reads_getByte.local.bind fun hardwareAddressLength =>
    reads_getByte.local.bind fun protocolAddressLength => reads_getShort.local.bind fun opCode =>
    (reads_getBytes _).local.bind fun senderHardwareAddress =>
    (reads_getBytes _).local.bind fun senderProtocolAddress =>
    (reads_getBytes _).local.bind fun targetHardwareAddress =>
    (reads_getBytes _).local.bind fun targetProtocolAddress => local_pure _

/-! ## LLDP -/

namespace LLDP

theorem local_deserialize : Local LLDPTLV.deserialize := by
  refine reads_getShort.local.bind fun sscratch => .ite ?_ (local_pure _)
  refine local_remaining.bind fun left => .ite (local_pure _) ?_
  exact (reads_getBytes _).local.bind fun value => local_pure _

theorem local_readTLVs (fuel : ℕ) (p : LLDP) : Local (readTLVs fuel p) := by
  induction fuel generalizing p with
  | zero => exact local_throw _
  | succ fuel ih =>
    refine local_deserialize.bind fun tlv => ?_
    cases tlv with
    | none => exact local_pure _
    | some tlv => exact local_remaining.bind fun _ => .ite (ih _) (local_pure _)

theorem keepsBehind : KeepsBehind deserialize fun _ => False :=
  Local.keepsBehind (local_remaining.bind fun _ => local_readTLVs _ _)

end LLDP

/-! ## BSN -/

/-- Without bytes behind the header there is no payload. -/
def BSNPROBE.Keeps (bs : List UInt8) : Prop := 36 < bs.length

theorem BSNPROBE.leaks_getPayload {α : Type} {g : Option Data → α} {b b' : ByteBuffer} {m : ℕ}
    (ht : ByteBuffer.Twins b b') (hg : Function.Injective g) :
    Leaks (do return g (← BSNPROBE.getPayload b.hb)) (do return g (← BSNPROBE.getPayload b'.hb))
      (b.skip m) (b'.skip m) (0 < b.remaining - m) := by
  unfold BSNPROBE.getPayload
  simp only [bind_assoc]
  apply leaks_remaining ht
  split_ifs with hleft
  · simp only [bind_assoc, pure_bind]
    refine (leaks_rest (g := fun a => g (some a)) ht Data.keepsBehind fun a a' h => ?_).congr ?_
    · exact Option.some.inj (hg h)
    · simp [hleft]
  · exact (leaks_pure _).congr (by simp [hleft])

theorem BSNPROBE.keepsBehind : KeepsBehind BSNPROBE.deserialize BSNPROBE.Keeps := by
  refine keepsBehind_decode (d := fun data _ => _) fun length b b' ht => ?_
  have hlen := b.length_bytes
  apply Leaks.congr
  · apply reads_getLong.leaks ht
    apply reads_getInt.leaks ht
    apply (reads_getBytes 6).leaks ht
    apply (reads_getBytes 6).leaks ht
    apply reads_getLong.leaks ht
    apply reads_getInt.leaks ht
    apply BSNPROBE.leaks_getPayload ht
    intro a a' h
    injection h
  · unfold BSNPROBE.Keeps
    omega

namespace BSN

def PayloadKeeps (type : UInt16) (bs : List UInt8) : Prop :=
  if type = typeProbe then BSNPROBE.Keeps bs
  else if type = typeBddp then False
  else True

def Keeps (bs : List UInt8) : Prop :=
  8 ≤ bs.length ∧ intAt bs 0 = magic ∧ shortAt bs 6 = versionCurrent ∧
    PayloadKeeps (shortAt bs 4) (bs.drop 8)

theorem keepsBehind_payload (type : UInt16) : KeepsBehind (deserializePayload type) (PayloadKeeps type) :=
  (BSNPROBE.keepsBehind.map fun _ _ => Payload.probe.inj).ite <|
    (LLDP.keepsBehind.map fun _ _ => Payload.lldp.inj).ite (Data.keepsBehind.map fun _ _ => Payload.data.inj)

theorem keepsBehind : KeepsBehind deserialize Keeps := by
  refine keepsBehind_decode (d := fun data _ => _) fun length b b' ht => ?_
  have hlen := b.length_bytes
  apply Leaks.congr
  · apply reads_getInt.leaks ht
    apply leaks_check
    apply reads_getShort.leaks ht
    apply reads_getShort.leaks ht
    apply leaks_check
    apply leaks_rest ht (keepsBehind_payload _)
    intro a a' h
    injection h with _ _ h
    exact Option.some.inj h
  · unfold Keeps
    simp only [List.drop_zero, shortAt_drop, Nat.reduceAdd, ne_eq, not_not]
    constructor
    · rintro ⟨-, hmagic, -, hlength, hversion, hpayload⟩
      exact ⟨by omega, hmagic, hversion, hpayload⟩
    · rintro ⟨hlength, hmagic, hversion, hpayload⟩
      exact ⟨by omega, hmagic, by omega, by omega, hversion, hpayload⟩

end BSN

/-! ## Ethernet -/

namespace Ethernet

def PayloadKeeps (etherType : UInt16) (bs : List UInt8) : Prop :=
  if etherType = typeArp then False
  else if etherType = typeRarp then False
  else if etherType = typeIPv4 then IPv4.Keeps bs
  else if etherType = typeLldp then False
  else if etherType = typeBsn then BSN.Keeps bs
  else True

/-- The frame ends in bytes that are not decoded. -/
def Keeps (bs : List UInt8) : Prop :=
  14 ≤ bs.length ∧
    if shortAt bs 12 = typeVlan then 18 ≤ bs.length ∧ PayloadKeeps (shortAt bs 16) (bs.drop 18)
    else PayloadKeeps (shortAt bs 12) (bs.drop 14)

theorem keepsBehind_payload (etherType : UInt16) :
    KeepsBehind (deserializePayload etherType) (PayloadKeeps etherType) :=
  (ARP.keepsBehind.map fun _ _ => Payload.arp.inj).ite <|
    (ARP.keepsBehind.map fun _ _ => Payload.arp.inj).ite <|
      (IPv4.keepsBehind.map fun _ _ => Payload.ipv4.inj).ite <|
        (LLDP.keepsBehind.map fun _ _ => Payload.lldp.inj).ite <|
          (BSN.keepsBehind.map fun _ _ => Payload.bsn.inj).ite
            (Data.keepsBehind.map fun _ _ => Payload.data.inj)

/-- The decoder of a frame that has bytes. -/
theorem exists_frame : ∃ d : List UInt8 → Decoder (Option Ethernet),
    (∀ data offset length, length ≠ 0 → deserialize data offset length = decode (d data) data offset length) ∧
      KeepsBehind (fun data offset length => decode (d data) data offset length) Keeps := by
  refine ⟨fun data => _, fun data offset length hlength => if_neg hlength,
    keepsBehind_decode (d := fun data _ => _) fun length b b' ht => ?_⟩
  have hlen := b.length_bytes
  unfold Keeps getTag
  simp only [bind_assoc]
  apply Leaks.congr
  · apply reads_getMACAddress.leaks ht
    apply reads_getMACAddress.leaks ht
    apply reads_getShort.leaks ht
    apply Leaks.ite (c := shortAt (b.bytes.drop (0 + 6 + 6)) 0 = typeVlan)
    · intro htag
      rw [if_pos htag]
      simp only [bind_assoc, pure_bind]
      apply reads_getShort.leaks ht
      apply reads_getShort.leaks ht
      apply leaks_rest ht (keepsBehind_payload _)
      intro a a' h
      injection h with h
      injection h with _ _ _ _ _ h
      exact Option.some.inj h
    · intro htag
      rw [if_neg htag]
      simp only [pure_bind]
      apply leaks_rest ht (keepsBehind_payload _)
      intro a a' h
      injection h with h
      injection h with _ _ _ _ _ h
      exact Option.some.inj h
  · simp only [shortAt_drop, Nat.reduceAdd]
    split_ifs with htag
    · constructor
      · rintro ⟨-, -, -, -, hlength, hpayload⟩
        exact ⟨by omega, by omega, hpayload⟩
      · rintro ⟨-, hlength, hpayload⟩
        exact ⟨by omega, by omega, by omega, by omega, by omega, hpayload⟩
    · constructor
      · rintro ⟨-, -, hlength, hpayload⟩
        exact ⟨by omega, hpayload⟩
      · rintro ⟨hlength, hpayload⟩
        exact ⟨by omega, by omega, by omega, hpayload⟩

theorem keepsBehind : KeepsBehind deserialize Keeps := by
  obtain ⟨d, hd, hkeeps⟩ := exists_frame
  intro data data' offset length h h' hslice
  by_cases hlength : length = 0
  · subst hlength
    have hshort : ¬Keeps (slice data offset 0) := by
      rintro ⟨hle, -⟩
      rw [slice, List.take_zero, List.length_nil] at hle
      omega
    have hnone : ∀ data, deserialize data offset 0 = .ok none := fun data => if_pos rfl
    rw [hnone, hnone]
    exact ⟨fun _ hK => absurd hK hshort, fun _ => rfl⟩
  · rw [hd data offset length hlength, hd data' offset length hlength]
    exact hkeeps data data' offset length h h' hslice

end Ethernet

/-- The classes of packets that a frame is decoded into. -/
inductive PacketClass where
  | ethernet
  | arp
  | lldp
  | bsn
  | bsnProbe
  | ipv4
  | icmp
  | tcp
  | udp
  | dhcp
  | data

namespace PacketClass

/-- What `deserialize` of the class returns. -/
def Packet : PacketClass → Type
  | ethernet => Option Ethernet
  | arp => ARP
  | lldp => LLDP
  | bsn => BSN
  | bsnProbe => BSNPROBE
  | ipv4 => IPv4
  | icmp => ICMP
  | tcp => TCP
  | udp => UDP
  | dhcp => DHCP
  | data => Data

def deserialize : (decoder : PacketClass) → List UInt8 → ℕ → ℕ → Except Stop decoder.Packet
  | ethernet => Ethernet.deserialize
  | arp => ARP.deserialize
  | lldp => LLDP.deserialize
  | bsn => BSN.deserialize
  | bsnProbe => BSNPROBE.deserialize
  | ipv4 => IPv4.deserialize
  | icmp => ICMP.deserialize
  | tcp => TCP.deserialize
  | udp => UDP.deserialize
  | dhcp => DHCP.deserialize
  | data => Data.deserialize

/-- The decoding of the bytes ends in a packet of `Data`. -/
def Keeps : PacketClass → List UInt8 → Prop
  | ethernet => Ethernet.Keeps
  | arp | lldp | dhcp => fun _ => False
  | bsn => BSN.Keeps
  | bsnProbe => BSNPROBE.Keeps
  | ipv4 => IPv4.Keeps
  | icmp => ICMP.Whole
  | tcp => TCP.Whole
  | udp => UDP.Keeps
  | data => fun _ => True

end PacketClass

/-- Each decoder gives the same for the same bytes exactly if they do not end in bytes that are not decoded, or
the same is behind them in both arrays. -/
theorem keepsBehind_all (decoder : PacketClass) : KeepsBehind decoder.deserialize decoder.Keeps := by
  cases decoder with
  | ethernet => exact Ethernet.keepsBehind
  | arp => exact ARP.keepsBehind
  | lldp => exact LLDP.keepsBehind
  | bsn => exact BSN.keepsBehind
  | bsnProbe => exact BSNPROBE.keepsBehind
  | ipv4 => exact IPv4.keepsBehind
  | icmp => exact ICMP.keepsBehind
  | tcp => exact TCP.keepsBehind
  | udp => exact UDP.keepsBehind
  | dhcp => exact DHCP.keepsBehind
  | data => exact Data.keepsBehind

/-- The result depends on the bytes that are decoded only. -/
def OfSlice {α : Type} (f : List UInt8 → ℕ → ℕ → Except Stop α) : Prop :=
  ∀ data data' offset length, offset + length ≤ data.length → offset + length ≤ data'.length →
    slice data offset length = slice data' offset length → f data offset length = f data' offset length

/-- The header of a frame, with a type that is not known. -/
def unknownFrame : List UInt8 := [0, 0, 0, 0, 0, 1, 0, 0, 0, 0, 0, 2, 0x12, 0x34]

/-- The frame keeps a byte that is behind it, and so do bytes that are not decoded. -/
theorem not_ofSlice : ¬OfSlice Ethernet.deserialize ∧ ¬OfSlice Data.deserialize := by
  constructor
  · intro h
    have heq := h unknownFrame (unknownFrame ++ [7]) 0 14 (by decide) (by decide) (by decide)
    revert heq
    decide +kernel
  · intro h
    have heq := h [1] [1, 7] 0 1 (by decide) (by decide) (by decide)
    revert heq
    decide +kernel

end Torpedo
