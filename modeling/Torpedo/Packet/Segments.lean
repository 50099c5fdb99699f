import Torpedo.Packet.RoundTrip

/-!
# A TCP segment that is read and written again

Each field of a segment comes back, the options and the payload too. The three reserved bits between the
data offset and the flags are cleared, and a checksum that is zero is computed.
-/

namespace Torpedo

namespace Segment

/-- The data offset counts the words of the header: five, and those of the options. -/
structure Whole (s : Segment) : Prop where
  le : 5 ≤ s.dataOffset.toNat
  options : s.options.length + 20 = s.dataOffset.toNat * 4

theorem Whole.split {s : Segment} (h : s.Whole) : s.Split := by
  have := h.options
  unfold Split
  rw [List.length_append]
  split_ifs with hlt
  · omega
  · have := mt lt_dataOffset.2 hlt
    omega

/-- The bits of the data offset and of the flags, without those between them. -/
def clearedWord (s : Segment) : UInt16 := .ofNat (s.word.toNat / 4096 * 4096 + s.word.toNat % 512)

theorem word_eq (s : Segment) :
    (s.word &&& 0x1ff) ||| s.dataOffset.toUInt16 <<< (12 : UInt16) = s.clearedWord := by
  have := s.word.toNat_lt
  rw [← UInt16.toNat_inj, toNat_word, clearedWord, UInt16.toNat_ofNat']
  omega

theorem clearedWord_eq_iff (s : Segment) : s.clearedWord = s.word ↔ s.word.toNat / 512 % 8 = 0 := by
  have := s.word.toNat_lt
  rw [← UInt16.toNat_inj, clearedWord, UInt16.toNat_ofNat']
  omega

/-- The segment with the reserved bits cleared. -/
def cleared (s : Segment) : Segment := s.rewritten s.clearedWord s.checksum s.options

/-- The checksum of the segment that is written, in a packet. -/
def sentChecksum (s : Segment) (parent : Option IPv4) : UInt16 :=
  checksumOf s.checksum (pseudoHeader (parent.map (·.setProtocol IPv4.protocolTcp)) s.bytes.length)
    s.cleared.bytes

/-- The segment that is written, in a packet. -/
def sent (s : Segment) (parent : Option IPv4) : Segment :=
  s.rewritten s.clearedWord (s.sentChecksum parent) s.options

theorem sentChecksum_of_ne {s : Segment} (h : s.checksum ≠ 0) (parent : Option IPv4) :
    s.sentChecksum parent = s.checksum := if_neg h

theorem layout_decoded {s : Segment} (h : s.Whole) (checksum : UInt16) :
    (s.decoded.layout s.body).bytes checksum = (s.rewritten s.clearedWord checksum s.options).bytes := by
  have hlayout := s.layout_bytes checksum
  have hzeros : s.dataOffset.toNat * 4 - 20 - s.options.length = 0 := by
    have := h.options
    omega
  rw [setDataOffset_eq h.le, optionBytes_eq h.split h.le, hzeros, List.replicate_zero,
    List.append_nil] at hlayout
  exact hlayout.trans (congrArg (fun word => (s.rewritten word checksum s.options).bytes) s.word_eq)

theorem bytes_decoded {s : Segment} (h : s.Whole) : s.decoded.bytes = s.cleared.bytes :=
  layout_decoded h s.checksum

theorem length_bytes_cleared (s : Segment) : s.cleared.bytes.length = s.bytes.length := by
  rw [length_bytes, length_bytes]
  rfl

theorem bytes_sent {s : Segment} (h : s.Whole) (parent : Option IPv4) :
    (s.decoded.sent (parent.map (·.setProtocol IPv4.protocolTcp))).bytes = (s.sent parent).bytes := by
  have hchecksum : (s.decoded.sent (parent.map (·.setProtocol IPv4.protocolTcp))).checksum =
      s.sentChecksum parent := by
    unfold sentChecksum TCP.sent
    rw [← length_bytes_cleared, bytes_decoded h]
    rfl
  have hlayout := layout_decoded h (s.sentChecksum parent)
  rw [← hchecksum] at hlayout
  unfold sent
  rw [← hchecksum]
  exact hlayout

theorem serialize_decoded {s : Segment} (h : s.Whole) (parent : Option IPv4) :
    ∃ q parent', s.decoded.serialize parent = .ok ((s.sent parent).bytes, q, parent') := by
  have hfits : s.decoded.setDataOffset.Fits := by
    rw [setDataOffset_eq h.le]
    exact fits_decoded h.split h.le
  have hserialize := TCP.serialize_eq s.decoded parent hfits
  dsimp only at hserialize
  rw [setDataOffset_eq h.le, bytes_sent h] at hserialize
  exact ⟨_, _, hserialize⟩

theorem bytes_sent_eq_iff (s : Segment) (parent : Option IPv4) :
    (s.sent parent).bytes = s.bytes ↔
      s.word.toNat / 512 % 8 = 0 ∧ (s.checksum ≠ 0 ∨ s.sentChecksum parent = 0) := by
  unfold sent
  rw [bytes_rewritten_iff, clearedWord_eq_iff]
  refine and_congr_right fun _ => ?_
  by_cases hzero : s.checksum = 0
  · simp [hzero]
  · simp [hzero, sentChecksum_of_ne]

/-- A segment that is read is written with the reserved bits cleared and the checksum set: with the same
bytes if the bits are zero, and the checksum is not or stays so. -/
theorem serialize_deserialize {s : Segment} (h : s.Whole) (front : List UInt8) (parent : Option IPv4) :
    ∃ p q parent', TCP.deserialize (front ++ s.bytes) front.length s.bytes.length = .ok p ∧
      p.serialize parent = .ok ((s.sent parent).bytes, q, parent') ∧
      ((s.sent parent).bytes = s.bytes ↔
        s.word.toNat / 512 % 8 = 0 ∧ (s.checksum ≠ 0 ∨ s.sentChecksum parent = 0)) := by
  obtain ⟨q, parent', hserialize⟩ := serialize_decoded h parent
  exact ⟨s.decoded, q, parent', deserialize_eq h.split rfl, hserialize, s.bytes_sent_eq_iff parent⟩

/-- A segment with an option, and with a reserved bit. -/
def reserved : Segment where
  sourcePort := 7
  destinationPort := 7
  sequence := 0
  acknowledge := 0
  word := 0x6210
  windowSize := 0
  checksum := 1
  urgentPointer := 0
  options := [1, 1, 1, 0]
  body := [42]

theorem whole_reserved : reserved.Whole := by
  constructor
  · decide
  · decide

/-- The reserved bit comes back as zero. -/
theorem serialize_deserialize_reserved :
    (∃ p q parent', TCP.deserialize ([] ++ reserved.bytes) 0 reserved.bytes.length = .ok p ∧
      p.serialize none = .ok ((reserved.sent none).bytes, q, parent') ∧
      ((reserved.sent none).bytes = reserved.bytes ↔
        reserved.word.toNat / 512 % 8 = 0 ∧ (reserved.checksum ≠ 0 ∨ reserved.sentChecksum none = 0))) ∧
      (reserved.sent none).word = 0x6010 :=
  ⟨serialize_deserialize whole_reserved [] none, by decide⟩

/-- Not all segments come back with the same bytes. -/
theorem not_serialize_deserialize :
    ¬∀ s : Segment, s.Whole → ∃ p q parent', TCP.deserialize s.bytes 0 s.bytes.length = .ok p ∧
      p.serialize none = .ok (s.bytes, q, parent') := by
  intro hsame
  obtain ⟨p, q, parent', hp, hserialize⟩ := hsame reserved whole_reserved
  have hdecoded : TCP.deserialize reserved.bytes 0 reserved.bytes.length = .ok reserved.decoded :=
    deserialize_eq whole_reserved.split (List.nil_append _).symm
  rw [hdecoded] at hp
  cases hp
  obtain ⟨q', parent'', hsent⟩ := serialize_decoded whole_reserved none
  rw [hsent] at hserialize
  have hbytes := congrArg (fun r : List UInt8 × TCP × Option IPv4 => r.1) (Except.ok.inj hserialize)
  exact absurd ((bytes_sent_eq_iff _ _).1 hbytes).1 (by decide)

end Segment

end Torpedo
