import Torpedo.Packet.Ethernet

/-!
# Whole packets

No decoder checks that the fields which it reads are there, with four exceptions: the options of TCP,
those of DHCP and the values of LLDP may be cut off, and a short DHCP packet is left empty. For each
packet `Whole` says which bytes its decoder can read to the end; the others make it throw.
-/

namespace Torpedo

open Decoder

theorem Data.decides (data : List UInt8) : DecidesSlices (Data.deserialize data) data fun _ => True := by
  intro offset length h
  unfold Data.deserialize
  rw [if_pos (by omega)]
  exact Decides.ok _

/-! ## ICMP -/

def ICMP.Whole (bs : List UInt8) : Prop := 4 ≤ bs.length

theorem ICMP.decides (data : List UInt8) : DecidesSlices (ICMP.deserialize data) data ICMP.Whole := by
  apply decides_decode
  intro b hb
  subst hb
  have hlen := b.length_bytes
  apply Decides.congr
  · apply reads_getByte.decides
    apply reads_getByte.decides
    apply reads_getShort.decides
    apply decides_rest (Data.decides _)
    intro a
    exact decides_pure _
  · unfold ICMP.Whole
    simp only [and_true]
    omega

/-! ## TCP -/

def TCP.Whole (bs : List UInt8) : Prop := 20 ≤ bs.length

/-- The options never make the decoder throw. -/
theorem TCP.decides_getOptions {α : Type} {k : Option (List UInt8) → Decoder α} {b : ByteBuffer} {m : ℕ}
    {P : Prop} (dataOffset : UInt8) (hk : ∀ a n, Decides (k a (b.skip n)) P) :
    Decides ((TCP.getOptions dataOffset >>= k) (b.skip m)) P := by
  unfold TCP.getOptions
  split_ifs
  · simp only [bind_assoc, pure_bind]
    apply decides_remaining
    apply Decides.congr
    · apply (reads_getBytes _).decides
      exact hk _ _
    · exact and_iff_right (Nat.min_le_right _ _)
  · exact hk _ _

theorem TCP.decides (data : List UInt8) : DecidesSlices (TCP.deserialize data) data TCP.Whole := by
  apply decides_decode
  intro b hb
  subst hb
  have hlen := b.length_bytes
  apply Decides.congr
  · apply reads_getShort.decides
    apply reads_getShort.decides
    apply reads_getInt.decides
    apply reads_getInt.decides
    apply reads_getShort.decides
    apply reads_getShort.decides
    apply reads_getShort.decides
    apply reads_getShort.decides
    apply TCP.decides_getOptions
    intro options n
    apply decides_rest (Data.decides _)
    intro a
    exact decides_pure _
  · unfold TCP.Whole
    simp only [and_true]
    omega

/-! ## DHCP -/

namespace DHCP

/-- A hardware address longer than its field takes the bytes behind it. -/
def Whole (bs : List UInt8) : Prop :=
  bs.length < minHeaderLength ∨ 224 + (byteAt bs 2).toNat ≤ bs.length

theorem reads_readString (maxLength : ℕ) :
    Reads (readString maxLength) maxLength fun bs =>
      .ofList (trim ((bs.take maxLength).map asciiChar)) :=
  (reads_getBytes maxLength).map _

variable {α : Type} {b : ByteBuffer} {m : ℕ} {P : Prop}

/-- Nor do the options of DHCP make the decoder throw. -/
theorem decides_readOption {k : DHCPOption → Decoder α} (code : UInt8)
    (hk : ∀ a n, m ≤ n → Decides (k a (b.skip n)) P) :
    Decides ((readOption code >>= k) (b.skip m)) P := by
  unfold readOption
  simp only [bind_assoc]
  apply decides_remaining
  split_ifs with hleft
  · simp only [bind_assoc]
    apply reads_getByte.decides_of_le hleft
    apply decides_remaining
    split_ifs with hvalue
    · simp only [bind_assoc, pure_bind]
      apply (reads_getBytes _).decides_of_le hvalue
      apply hk
      omega
    · apply hk
      omega
  · exact hk _ _ le_rfl

/-- The loop ends: each round but the last reads a byte at least. -/
theorem decides_readOptions (fuel : ℕ) (options : List DHCPOption) (h : b.remaining - m < fuel) :
    Decides (readOptions fuel options (b.skip m)) True := by
  induction fuel generalizing m options with
  | zero => omega
  | succ fuel ih =>
    unfold readOptions
    apply decides_remaining
    split_ifs with hleft
    · apply reads_getByte.decides_of_le hleft
      split_ifs
      · apply ih
        omega
      · exact decides_pure _
      · apply decides_readOption
        intro option n hn
        split_ifs
        · exact decides_pure _
        · apply ih
          omega
    · exact decides_pure _

theorem decides (data : List UInt8) : DecidesSlices (deserialize data) data Whole := by
  apply decides_decode
  intro b hb
  subst hb
  have hlen := b.length_bytes
  unfold Whole minHeaderLength
  apply decides_remaining
  split_ifs with hshort
  · refine (decides_pure _).congr ?_
    rw [true_iff]
    omega
  · -- the fields up to the hardware address are there
    apply reads_getByte.decides_of_le (by omega)
    apply reads_getByte.decides_of_le (by omega)
    apply reads_getByte.decides_of_le (by omega)
    apply reads_getByte.decides_of_le (by omega)
    apply reads_getInt.decides_of_le (by omega)
    apply reads_getShort.decides_of_le (by omega)
    apply reads_getShort.decides_of_le (by omega)
    apply reads_getInt.decides_of_le (by omega)
    apply reads_getInt.decides_of_le (by omega)
    apply reads_getInt.decides_of_le (by omega)
    apply reads_getInt.decides_of_le (by omega)
    apply Decides.congr
    · apply (reads_getBytes _).decides
      apply (reads_skipBytes _).decides
      apply (reads_readString 64).decides
      apply (reads_readString 128).decides
      apply (reads_skipBytes 4).decides
      apply decides_remaining
      apply decides_bind
      · apply decides_readOptions
        exact Nat.lt_succ_self _
      · intro options b'
        exact decides_pure _
    · simp only [byteAt_drop, and_true, Nat.reduceAdd]
      omega

end DHCP

/-! ## UDP -/

namespace UDP

def PayloadWhole (destinationPort sourcePort : UInt16) (bs : List UInt8) : Prop :=
  if decodeMap destinationPort then DHCP.Whole bs
  else if decodeMap sourcePort then DHCP.Whole bs
  else True

def Whole (bs : List UInt8) : Prop :=
  8 ≤ bs.length ∧ PayloadWhole (shortAt bs 2) (shortAt bs 0) (bs.drop 8)

theorem decides_payload (destinationPort sourcePort : UInt16) (data : List UInt8) :
    DecidesSlices (deserializePayload destinationPort sourcePort data) data
      (PayloadWhole destinationPort sourcePort) :=
  ((DHCP.decides data).map _).ite (((DHCP.decides data).map _).ite ((Data.decides data).map _))

theorem decides (data : List UInt8) : DecidesSlices (deserialize data) data Whole := by
  apply decides_decode
  intro b hb
  subst hb
  have hlen := b.length_bytes
  apply Decides.congr
  · apply reads_getShort.decides
    apply reads_getShort.decides
    apply reads_getShort.decides
    apply reads_getShort.decides
    apply decides_rest (decides_payload _ _ _)
    intro a
    exact decides_pure _
  · unfold Whole
    simp only [shortAt_drop, and_true, Nat.reduceAdd]
    constructor
    · rintro ⟨-, -, -, hlength, hpayload⟩
      exact ⟨by omega, hpayload⟩
    · rintro ⟨hlength, hpayload⟩
      exact ⟨by omega, by omega, by omega, by omega, hpayload⟩

end UDP

/-! ## IPv4 -/

namespace IPv4

def PayloadWhole (protocol : UInt8) (bs : List UInt8) : Prop :=
  if protocol = protocolIcmp then ICMP.Whole bs
  else if protocol = protocolTcp then TCP.Whole bs
  else if protocol = protocolUdp then UDP.Whole bs
  else True

/-- The length of the options. -/
def optionsLength (bs : List UInt8) : ℕ := ((byteAt bs 0 &&& 0xf).toNat - 5) * 4

def Whole (bs : List UInt8) : Prop :=
  20 + optionsLength bs ≤ bs.length ∧
    PayloadWhole (byteAt bs 9) (bs.drop (20 + optionsLength bs))

theorem decides_payload (protocol : UInt8) (data : List UInt8) :
    DecidesSlices (deserializePayload protocol data) data (PayloadWhole protocol) :=
  ((ICMP.decides data).map _).ite <| ((TCP.decides data).map _).ite <|
    ((UDP.decides data).map _).ite ((Data.decides data).map _)

theorem reads_getOptions (headerLength : UInt8) :
    Reads (getOptions headerLength) ((headerLength.toNat - 5) * 4) fun bs =>
      if 5 < headerLength then some (bs.take ((headerLength.toNat - 5) * 4)) else none := by
  unfold getOptions
  by_cases h : 5 < headerLength
  · simp only [if_pos h]
    exact (reads_getBytes _).map some
  · have hnone : (headerLength.toNat - 5) * 4 = 0 := by
      rw [UInt8.lt_iff_toNat_lt] at h
      have hfive : (5 : UInt8).toNat = 5 := rfl
      omega
    simp only [if_neg h, hnone]
    exact reads_pure none

theorem decides (data : List UInt8) : DecidesSlices (deserialize data) data Whole := by
  intro offset length
  apply decides_decode
  intro b hb
  subst hb
  have hlen := b.length_bytes
  apply Decides.congr
  · apply reads_getByte.decides
    apply reads_getByte.decides
    apply reads_getShort.decides
    apply reads_getShort.decides
    apply reads_getShort.decides
    apply reads_getByte.decides
    apply reads_getByte.decides
    apply reads_getShort.decides
    apply reads_getInt.decides
    apply reads_getInt.decides
    apply (reads_getOptions _).decides
    apply decides_rest (decides_payload _ _)
    intro a
    exact decides_pure _
  · unfold Whole optionsLength
    simp only [byteAt_drop, and_true, Nat.reduceAdd]
    set n := ((byteAt b.bytes 0 &&& 0xf).toNat - 5) * 4
    by_cases hpayload : PayloadWhole (byteAt b.bytes 9) (b.bytes.drop (20 + n))
    · simp only [hpayload, and_true]
      omega
    · simp only [hpayload, and_false]

end IPv4

/-! ## ARP -/

def ARP.Whole (bs : List UInt8) : Prop :=
  8 + 2 * ((byteAt bs 4).toNat + (byteAt bs 5).toNat) ≤ bs.length

theorem ARP.decides (data : List UInt8) : DecidesSlices (ARP.deserialize data) data ARP.Whole := by
  apply decides_decode
  intro b hb
  subst hb
  have hlen := b.length_bytes
  apply Decides.congr
  · apply reads_getShort.decides
    apply reads_getShort.decides
    apply reads_getByte.decides
    apply reads_getByte.decides
    apply reads_getShort.decides
    apply (reads_getBytes _).decides
    apply (reads_getBytes _).decides
    apply (reads_getBytes _).decides
    apply (reads_getBytes _).decides
    exact decides_pure _
  · unfold ARP.Whole
    simp only [byteAt_drop, and_true, Nat.reduceAdd]
    omega

/-! ## LLDP -/

namespace LLDPTLV

/-- The length field of a TLV. -/
def lengthAt (bs : List UInt8) : ℕ := (shortAt bs 0 &&& 0x1ff).toNat

/-- The type field of a TLV. -/
def typeAt (bs : List UInt8) : UInt8 := (shortAt bs 0 >>> 9).toUInt8

/-- The bytes of one TLV, which is not the end of the packet. -/
structure Bytes (bs : List UInt8) : Prop where
  length_eq : bs.length = 2 + lengthAt bs
  type_ne : typeAt bs ≠ 0

/-- The TLV at the front of the bytes. -/
def ofBytes (bs : List UInt8) : LLDPTLV where
  type := typeAt bs
  length := shortAt bs 0 &&& 0x1ff
  value := if 0 < lengthAt bs then some ((bs.drop 2).take (lengthAt bs)) else none

/-- A TLV is read with its value, or not at all. -/
theorem deserialize_eq {b : ByteBuffer} (h : 2 ≤ b.remaining) :
    LLDPTLV.deserialize b =
      if 2 + lengthAt b.bytes ≤ b.remaining then
        .ok (some (ofBytes b.bytes), b.skip (2 + lengthAt b.bytes))
      else .ok (none, b.skip 2) := by
  have hshort : getShort b = .ok (shortAt b.bytes 0, b.skip 2) := (reads_getShort b).trans (if_pos h)
  have hvalue := reads_getBytes (lengthAt b.bytes) (b.skip 2)
  rw [ByteBuffer.remaining_skip, ByteBuffer.skip_skip, ByteBuffer.bytes_skip] at hvalue
  have hpos : 0 < shortAt b.bytes 0 &&& 0x1ff ↔ 0 < lengthAt b.bytes := UInt16.lt_iff_toNat_lt
  unfold LLDPTLV.deserialize ofBytes
  rw [bind_ok hshort]
  by_cases hlength : 0 < lengthAt b.bytes
  · rw [if_pos (hpos.2 hlength), bind_ok (remaining_skip b 2), if_pos hlength]
    by_cases hfit : 2 + lengthAt b.bytes ≤ b.remaining
    · have hthere : ¬b.remaining - 2 < (shortAt b.bytes 0 &&& 0x1ff).toNat :=
        Nat.not_lt.2 (Nat.le_sub_of_add_le' hfit)
      rw [if_pos (Nat.le_sub_of_add_le' hfit)] at hvalue
      rw [if_pos hfit, if_neg hthere]
      exact bind_ok hvalue
    · have hcut : b.remaining - 2 < (shortAt b.bytes 0 &&& 0x1ff).toNat := by
        unfold lengthAt at hfit
        omega
      rw [if_neg hfit, if_pos hcut]
      rfl
  · have hzero : lengthAt b.bytes = 0 := Nat.eq_zero_of_not_pos hlength
    rw [if_neg (hpos.not.2 hlength), if_neg hlength, hzero, if_pos h]
    rfl

end LLDPTLV

namespace LLDP

/-- After some TLVs a single byte is left. -/
inductive Cut : List UInt8 → Prop
  | byte (x : UInt8) : Cut [x]
  | tlv {bs rest : List UInt8} (hbs : LLDPTLV.Bytes bs) (hrest : Cut rest) : Cut (bs ++ rest)

def Whole (bs : List UInt8) : Prop := bs ≠ [] ∧ ¬Cut bs

theorem shortAt_append {bs rest : List UInt8} (h : 2 ≤ bs.length) :
    shortAt (bs ++ rest) 0 = shortAt bs 0 := by
  unfold shortAt
  rw [List.drop_zero, List.drop_zero, List.take_append_of_le_length h]

theorem typeAt_append {bs rest : List UInt8} (h : 2 ≤ bs.length) :
    LLDPTLV.typeAt (bs ++ rest) = LLDPTLV.typeAt bs := by
  unfold LLDPTLV.typeAt
  rw [shortAt_append h]

theorem lengthAt_append {bs rest : List UInt8} (h : 2 ≤ bs.length) :
    LLDPTLV.lengthAt (bs ++ rest) = LLDPTLV.lengthAt bs := by
  unfold LLDPTLV.lengthAt
  rw [shortAt_append h]

/-- The first TLV, if there is one, and then the others. -/
theorem cut_iff {bs : List UInt8} (h : 2 ≤ bs.length) :
    Cut bs ↔ 2 + LLDPTLV.lengthAt bs ≤ bs.length ∧ LLDPTLV.typeAt bs ≠ 0 ∧
      Cut (bs.drop (2 + LLDPTLV.lengthAt bs)) := by
  constructor
  · intro hcut
    cases hcut with
    | byte x => simp at h
    | @tlv bs rest hbs hrest =>
      have htwo : 2 ≤ bs.length := by
        rw [hbs.length_eq]
        omega
      rw [lengthAt_append htwo, typeAt_append htwo, ← hbs.length_eq, List.drop_left]
      exact ⟨by simp, hbs.type_ne, hrest⟩
  · rintro ⟨hlength, htype, hrest⟩
    have htake : (bs.take (2 + LLDPTLV.lengthAt bs)).length = 2 + LLDPTLV.lengthAt bs := by
      rw [List.length_take, Nat.min_eq_left hlength]
    have htwo : 2 ≤ (bs.take (2 + LLDPTLV.lengthAt bs)).length := by
      rw [htake]
      omega
    have hsplit := List.take_append_drop (2 + LLDPTLV.lengthAt bs) bs
    have hbytes : LLDPTLV.Bytes (bs.take (2 + LLDPTLV.lengthAt bs)) := by
      constructor
      · rw [htake, ← lengthAt_append htwo, hsplit]
      · rwa [← typeAt_append htwo, hsplit]
    have hcut := Cut.tlv hbytes hrest
    rwa [hsplit] at hcut

theorem Cut.length_pos {bs : List UInt8} (h : Cut bs) : 0 < bs.length := by
  induction h with
  | byte x => exact Nat.one_pos
  | tlv hbs hrest ih =>
    rw [List.length_append]
    omega

/-- The loop ends. It goes on after each whole TLV that is not the end of the packet. -/
theorem decides_readTLVs {b : ByteBuffer} (fuel : ℕ) (p : LLDP) (h : b.remaining < fuel) :
    Decides (readTLVs fuel p b) (Whole b.bytes) := by
  induction fuel generalizing b p with
  | zero => omega
  | succ fuel ih =>
    have hlen := b.length_bytes
    unfold readTLVs Whole
    by_cases htwo : 2 ≤ b.remaining
    · have hcut := cut_iff (show 2 ≤ b.bytes.length by omega)
      have hne : b.bytes ≠ [] := List.ne_nil_of_length_pos (by omega)
      have htlv := LLDPTLV.deserialize_eq htwo
      rw [hlen] at hcut
      rw [hcut]
      by_cases hfit : 2 + LLDPTLV.lengthAt b.bytes ≤ b.remaining
      · rw [if_pos hfit] at htlv
        rw [bind_ok htlv]
        dsimp only
        rw [bind_ok (remaining_skip b _)]
        split_ifs with hgo
        · have hnext := ih (b := b.skip (2 + LLDPTLV.lengthAt b.bytes))
            (p.keep (LLDPTLV.ofBytes b.bytes)) (by
              rw [ByteBuffer.remaining_skip]
              omega)
          rw [ByteBuffer.bytes_skip] at hnext
          refine hnext.congr ?_
          have hrest : b.bytes.drop (2 + LLDPTLV.lengthAt b.bytes) ≠ [] := by
            apply List.ne_nil_of_length_pos
            rw [List.length_drop, hlen]
            exact hgo.2
          have htype : LLDPTLV.typeAt b.bytes ≠ 0 := hgo.1
          unfold Whole
          simp [hne, hrest, hfit, htype]
        · -- the end of the packet, or of the bytes
          refine (decides_pure _).congr ?_
          rw [true_iff]
          refine ⟨hne, fun hall => hgo ⟨hall.2.1, ?_⟩⟩
          have hpos := hall.2.2.length_pos
          rwa [List.length_drop, hlen] at hpos
      · -- the value is cut off
        rw [if_neg hfit] at htlv
        rw [bind_ok htlv]
        refine (decides_pure _).congr ?_
        rw [true_iff]
        exact ⟨hne, fun hall => hfit hall.1⟩
    · have hthrow : LLDPTLV.deserialize b = .error .exception := by
        unfold LLDPTLV.deserialize
        exact bind_error ((reads_getShort b).trans (if_neg htwo))
      rw [bind_error hthrow]
      refine Decides.throw.congr ?_
      rw [false_iff, not_and_not_right]
      intro hne
      have hone : b.bytes.length = 1 := by
        have := List.length_pos_iff.2 hne
        omega
      obtain ⟨x, hx⟩ := List.length_eq_one_iff.1 hone
      rw [hx]
      exact Cut.byte x

theorem decides (data : List UInt8) : DecidesSlices (deserialize data) data Whole := by
  intro offset length
  apply decides_decode
  intro b hb
  subst hb
  apply decides_remaining
  rw [ByteBuffer.skip_zero]
  exact decides_readTLVs _ _ (Nat.lt_succ_self _)

end LLDP

/-! ## BSN -/

def BSNPROBE.Whole (bs : List UInt8) : Prop := 36 ≤ bs.length

theorem BSNPROBE.decides_getPayload {α : Type} {k : Option Data → Decoder α} {b : ByteBuffer} {m : ℕ}
    {P : Prop} (hk : ∀ a, Decides (k a (b.skip m)) P) :
    Decides ((BSNPROBE.getPayload b.hb >>= k) (b.skip m)) P := by
  unfold BSNPROBE.getPayload
  simp only [bind_assoc]
  apply decides_remaining
  split_ifs
  · simp only [bind_assoc, pure_bind]
    refine (decides_rest (Data.decides _) fun a => ?_).congr (and_iff_right trivial)
    exact hk _
  · exact hk _

theorem BSNPROBE.decides (data : List UInt8) :
    DecidesSlices (BSNPROBE.deserialize data) data BSNPROBE.Whole := by
  apply decides_decode
  intro b hb
  subst hb
  have hlen := b.length_bytes
  apply Decides.congr
  · apply reads_getLong.decides
    apply reads_getInt.decides
    apply (reads_getBytes 6).decides
    apply (reads_getBytes 6).decides
    apply reads_getLong.decides
    apply reads_getInt.decides
    apply BSNPROBE.decides_getPayload
    intro a
    exact decides_pure _
  · unfold BSNPROBE.Whole
    simp only [and_true]
    omega

namespace BSN

def PayloadWhole (type : UInt16) (bs : List UInt8) : Prop :=
  if type = typeProbe then BSNPROBE.Whole bs
  else if type = typeBddp then LLDP.Whole bs
  else True

/-- The magic number and the version are checked. -/
def Whole (bs : List UInt8) : Prop :=
  8 ≤ bs.length ∧ intAt bs 0 = magic ∧ shortAt bs 6 = versionCurrent ∧
    PayloadWhole (shortAt bs 4) (bs.drop 8)

theorem decides_payload (type : UInt16) (data : List UInt8) :
    DecidesSlices (deserializePayload type data) data (PayloadWhole type) :=
  ((BSNPROBE.decides data).map _).ite (((LLDP.decides data).map _).ite ((Data.decides data).map _))

theorem decides (data : List UInt8) : DecidesSlices (deserialize data) data Whole := by
  apply decides_decode
  intro b hb
  subst hb
  have hlen := b.length_bytes
  apply Decides.congr
  · apply reads_getInt.decides
    apply decides_check
    apply reads_getShort.decides
    apply reads_getShort.decides
    apply decides_check
    apply decides_rest (decides_payload _ _)
    intro a
    exact decides_pure _
  · unfold Whole
    simp only [List.drop_zero, shortAt_drop, and_true, Nat.reduceAdd, ne_eq, not_not]
    constructor
    · rintro ⟨-, hmagic, -, hlength, hversion, hpayload⟩
      exact ⟨by omega, hmagic, hversion, hpayload⟩
    · rintro ⟨hlength, hmagic, hversion, hpayload⟩
      exact ⟨by omega, hmagic, by omega, by omega, hversion, hpayload⟩

end BSN

/-! ## Ethernet -/

namespace Ethernet

def PayloadWhole (etherType : UInt16) (bs : List UInt8) : Prop :=
  if etherType = typeArp then ARP.Whole bs
  else if etherType = typeRarp then ARP.Whole bs
  else if etherType = typeIPv4 then IPv4.Whole bs
  else if etherType = typeLldp then LLDP.Whole bs
  else if etherType = typeBsn then BSN.Whole bs
  else True

def Whole (bs : List UInt8) : Prop :=
  14 ≤ bs.length ∧
    if shortAt bs 12 = typeVlan then 18 ≤ bs.length ∧ PayloadWhole (shortAt bs 16) (bs.drop 18)
    else PayloadWhole (shortAt bs 12) (bs.drop 14)

theorem decides_payload (etherType : UInt16) (data : List UInt8) :
    DecidesSlices (deserializePayload etherType data) data (PayloadWhole etherType) :=
  ((ARP.decides data).map _).ite <| ((ARP.decides data).map _).ite <|
    ((IPv4.decides data).map _).ite <| ((LLDP.decides data).map _).ite <|
      ((BSN.decides data).map _).ite ((Data.decides data).map _)

theorem reads_getMACAddress : Reads getMACAddress 6 fun bs => MACAddress.new (bs.take 6) := by
  intro b
  by_cases h : 6 ≤ b.remaining
  · have hlen : (b.bytes.take 6).length = 6 := by
      rw [List.length_take, b.length_bytes, Nat.min_eq_left h]
    have hbytes := (reads_getBytes 6 b).trans (if_pos h)
    unfold getMACAddress MACAddress.valueOf
    rw [if_pos h, bind_ok hbytes]
    simp only [hlen, ne_eq, not_true_eq_false, if_false]
    rfl
  · rw [if_neg h]
    exact bind_error ((reads_getBytes 6 b).trans (if_neg h))

/-- There is a result for a frame with a header if and only if all of the packets in it are whole. -/
theorem decides (data : List UInt8) (offset length : ℕ) (hlength : length ≠ 0)
    (h : offset + length ≤ data.length) :
    Decides (deserialize data offset length) (Whole (slice data offset length)) := by
  unfold deserialize
  rw [if_neg hlength]
  refine decides_decode (C := Whole) ?_ offset length h
  intro b hb
  subst hb
  have hlen := b.length_bytes
  unfold Whole getTag
  simp only [bind_assoc]
  apply Decides.congr
  · apply reads_getMACAddress.decides
    apply reads_getMACAddress.decides
    apply reads_getShort.decides
    apply Decides.ite (c := shortAt (b.bytes.drop (0 + 6 + 6)) 0 = typeVlan)
    · intro htag
      rw [if_pos htag]
      simp only [bind_assoc, pure_bind]
      apply reads_getShort.decides
      apply reads_getShort.decides
      apply decides_rest (decides_payload _ _)
      intro a
      exact decides_pure _
    · intro htag
      rw [if_neg htag]
      simp only [pure_bind]
      apply decides_rest (decides_payload _ _)
      intro a
      exact decides_pure _
  · simp only [shortAt_drop, and_true, Nat.reduceAdd]
    split_ifs with htag
    · constructor
      · rintro ⟨-, -, -, -, hlength, hpayload⟩
        exact ⟨by omega, by omega, hpayload⟩
      · rintro ⟨-, hlength, hpayload⟩
        exact ⟨by omega, by omega, by omega, by omega, by omega, hpayload⟩
    · constructor
      · rintro ⟨-, -, hlength, hpayload⟩
        exact ⟨by omega, hpayload⟩
      · rintro ⟨hlength, hpayload⟩
        exact ⟨by omega, by omega, by omega, hpayload⟩

end Ethernet

end Torpedo
