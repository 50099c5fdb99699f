import Torpedo.Packet.Messages
import Torpedo.Packet.Checksums

/-!
# Reading a frame and writing it again

A frame with an IPv4 packet comes back with the same fields, the same total length and the same payload
if nothing is dropped and nothing is computed anew with another result. What is dropped: a bit of the
VLAN tag, bits of a TCP header, the end of the packet before the padding of the frame. What is computed:
all lengths, the checksums that are zero, and all of a DHCP message.
-/

namespace Torpedo

open OnesComplement Decoder

/-! ## Checksums that stay -/

/-- Zero stays zero if the complement of the sum is zero. -/
def Stays (checksum : UInt16) (covered : List UInt8) : Prop :=
  checksum = 0 → carry (wordSum covered) % 65536 = 65535

theorem checksumOf_eq_iff {checksum : UInt16} {accumulation : UInt32} {pseudo bs : List UInt8}
    (heven : pseudo.length % 2 = 0) (hacc : accumulation.toNat = wordSum pseudo)
    (hlt : wordSum pseudo + wordSum bs < 4294967296) :
    checksumOf checksum accumulation bs = checksum ↔ Stays checksum (pseudo ++ bs) := by
  have hsum : (accumulation + .ofNat (wordSum bs)).toNat = wordSum (pseudo ++ bs) := by
    rw [wordSum_append _ heven, UInt32.toNat_add, UInt32.toNat_ofNat', hacc]
    omega
  unfold checksumOf Stays
  by_cases hzero : checksum = 0
  · subst hzero
    rw [if_pos rfl, ← UInt16.toNat_inj, toNat_complement, hsum, UInt16.toNat_zero]
    have := Nat.mod_lt (carry (wordSum (pseudo ++ bs))) (by decide : 0 < 65536)
    constructor
    · intro h _
      omega
    · intro h
      have := h rfl
      omega
  · rw [if_neg hzero]
    exact ⟨fun _ h => absurd h hzero, fun _ => rfl⟩

theorem bytesOf_inj {k n m : ℕ} (hn : n < 256 ^ k) (hm : m < 256 ^ k) :
    bytesOf k n = bytesOf k m ↔ n = m := by
  constructor
  · intro h
    have hdigits := congrArg bigEndian h
    rwa [bigEndian_bytesOf, bigEndian_bytesOf, Nat.mod_eq_of_lt hn, Nat.mod_eq_of_lt hm] at hdigits
  · rintro rfl
    rfl

theorem bytesOf_short_inj {n m : UInt16} : bytesOf 2 n.toNat = bytesOf 2 m.toNat ↔ n = m := by
  rw [bytesOf_inj n.toNat_lt m.toNat_lt, UInt16.toNat_inj]

theorem Layout.bytes_inj (l : Layout) {c c' : UInt16} : l.bytes c = l.bytes c' ↔ c = c' := by
  unfold bytes
  rw [List.append_left_inj, List.append_right_inj, bytesOf_short_inj]

/-- Of a payload and a padding, what is written with a checksum is the payload if there is no padding, and
the checksum stays. -/
theorem Layout.bytes_eq_iff {l : Layout} {checksum : UInt16} {payload padding : List UInt8}
    (accumulation : UInt32) (pseudo : List UInt8) (hbytes : l.bytes checksum = payload ++ padding)
    (hlt : payload.length < 32768) (heven : pseudo.length % 2 = 0) (hle : pseudo.length ≤ 12)
    (hacc : accumulation.toNat = wordSum pseudo) :
    l.bytes (checksumOf checksum accumulation (l.bytes checksum)) = payload ↔
      padding = [] ∧ Stays checksum (pseudo ++ payload) := by
  have hlength : (l.bytes (checksumOf checksum accumulation (l.bytes checksum))).length =
      (payload ++ padding).length := by
    rw [← hbytes, l.length_bytes, l.length_bytes]
  have hpseudo : wordSum pseudo < 1073741824 := wordSum_lt (by omega)
  have hpayload := wordSum_lt hlt
  constructor
  · intro h
    have hnil : padding = [] := by
      rw [h, List.length_append] at hlength
      exact List.eq_nil_of_length_eq_zero (by omega)
    subst hnil
    rw [List.append_nil] at hbytes
    rw [← hbytes, l.bytes_inj, hbytes] at h
    exact ⟨rfl, (checksumOf_eq_iff heven hacc (by omega)).1 h⟩
  · rintro ⟨rfl, hstays⟩
    rw [List.append_nil] at hbytes
    rw [hbytes, (checksumOf_eq_iff heven hacc (by omega)).2 hstays, hbytes]

theorem slice_append (front bs : List UInt8) : slice (front ++ bs) front.length bs.length = bs := by
  unfold slice
  rw [List.drop_left, List.take_length]

/-! ## ICMP -/

namespace ICMP

structure Kept (payload padding : List UInt8) : Prop where
  padding : padding = []
  le : 4 ≤ payload.length
  checksum : Stays (shortAt payload 2) payload

theorem exists_bytes {bs : List UInt8} (h : 4 ≤ bs.length) :
    ∃ p : ICMP, ∃ body, p.payload = some ⟨body⟩ ∧ p.bytes = bs := by
  obtain _ | ⟨icmpType, _ | ⟨icmpCode, bs⟩⟩ := bs
  · exact absurd h (by decide)
  · exact absurd h (by simp)
  · have hle : 2 ≤ bs.length := by
      simp only [List.length_cons] at h
      omega
    refine ⟨⟨icmpType, icmpCode, shortAt bs 0, some ⟨bs.drop 2⟩⟩, bs.drop 2, rfl, ?_⟩
    show [icmpType, icmpCode] ++ bytesOf 2 (shortAt bs 0).toNat ++ bs.drop 2 = _
    rw [List.append_assoc, bytesOf_shortAt hle]
    rfl

theorem kept_iff (front : List UInt8) {payload padding : List UInt8} (hlt : payload.length < 32768) :
    (∃ p : ICMP, ICMP.deserialize (front ++ (payload ++ padding)) front.length
        (payload ++ padding).length = .ok p ∧ p.sent.bytes = payload) ↔ Kept payload padding := by
  by_cases hle : 4 ≤ (payload ++ padding).length
  · obtain ⟨p, body, hpayload, hbytes⟩ := exists_bytes hle
    have hdecode := deserialize_eq hpayload (congrArg (front ++ ·) hbytes.symm)
    rw [hbytes] at hdecode
    have hiff := Layout.bytes_eq_iff 0 [] hbytes hlt rfl (Nat.zero_le _) rfl
    have hfield : shortAt (payload ++ padding) 2 = p.checksum := by
      rw [← hbytes]
      unfold bytes Layout.bytes
      rw [List.append_assoc]
      exact shortAt_append_bytesOf [p.icmpType, p.icmpCode] _ _
    constructor
    · rintro ⟨q, hq, hsent⟩
      cases hdecode.symm.trans hq
      obtain ⟨rfl, hstays⟩ := hiff.1 hsent
      rw [List.append_nil] at hle hfield
      exact ⟨rfl, hle, hfield ▸ hstays⟩
    · rintro ⟨rfl, -, hstays⟩
      rw [List.append_nil] at hfield
      exact ⟨p, hdecode, hiff.2 ⟨rfl, hfield ▸ hstays⟩⟩
  · have herror : ICMP.deserialize (front ++ (payload ++ padding)) front.length
        (payload ++ padding).length = .error .exception := by
      have hdecides := ICMP.decides (front ++ (payload ++ padding)) front.length
        (payload ++ padding).length List.length_append.ge
      rw [slice_append] at hdecides
      exact hdecides.2 hle
    rw [herror]
    constructor
    · rintro ⟨q, hq, -⟩
      exact nomatch hq
    · rintro ⟨rfl, hle', -⟩
      rw [List.append_nil] at hle
      exact absurd hle' hle

end ICMP

/-! ## TCP -/

theorem exists_short (bs : List UInt8) (h : 2 ≤ bs.length) :
    ∃ n : UInt16, ∃ rest, bs = bytesOf 2 n.toNat ++ rest ∧ bs.length = 2 + rest.length := by
  refine ⟨shortAt bs 0, bs.drop 2, (bytesOf_shortAt h).symm, ?_⟩
  rw [List.length_drop]
  omega

theorem exists_int (bs : List UInt8) (h : 4 ≤ bs.length) :
    ∃ n : UInt32, ∃ rest, bs = bytesOf 4 n.toNat ++ rest ∧ bs.length = 4 + rest.length := by
  refine ⟨intAt bs 0, bs.drop 4, (bytesOf_intAt h).symm, ?_⟩
  rw [List.length_drop]
  omega

theorem TCP.setDataOffset_of_ne {p : TCP} (h : p.dataOffset ≠ 0) : p.setDataOffset = p := by
  unfold setDataOffset
  rw [if_neg h]

namespace Segment

theorem exists_bytes {bs : List UInt8} (h : 20 ≤ bs.length) : ∃ s : Segment, s.Split ∧ s.bytes = bs := by
  obtain ⟨sourcePort, bs₁, rfl, h₁⟩ := exists_short bs (by omega)
  obtain ⟨destinationPort, bs₂, rfl, h₂⟩ := exists_short bs₁ (by omega)
  obtain ⟨sequence, bs₃, rfl, h₃⟩ := exists_int bs₂ (by omega)
  obtain ⟨acknowledge, bs₄, rfl, h₄⟩ := exists_int bs₃ (by omega)
  obtain ⟨word, bs₅, rfl, h₅⟩ := exists_short bs₄ (by omega)
  obtain ⟨windowSize, bs₆, rfl, h₆⟩ := exists_short bs₅ (by omega)
  obtain ⟨checksum, bs₇, rfl, h₇⟩ := exists_short bs₆ (by omega)
  obtain ⟨urgentPointer, bs₈, rfl, h₈⟩ := exists_short bs₇ (by omega)
  generalize hoffset : (word >>> 12).toUInt8 = dataOffset
  obtain ⟨n, hn⟩ : ∃ n, n = if 5 < dataOffset then min (dataOffset.toNat * 4 - 20) bs₈.length else 0 :=
    ⟨_, rfl⟩
  have hle : n ≤ bs₈.length := by
    rw [hn]
    split_ifs <;> omega
  refine ⟨⟨sourcePort, destinationPort, sequence, acknowledge, word, windowSize, checksum, urgentPointer,
    bs₈.take n, bs₈.drop n⟩, ?_, ?_⟩
  · unfold Split Segment.dataOffset
    dsimp only
    rw [hoffset, List.take_append_drop, List.length_take_of_le hle, hn]
  · unfold bytes
    rw [List.take_append_drop]

theorem toNat_dataOffset (s : Segment) : s.dataOffset.toNat = s.word.toNat / 4096 := by
  have hlt := s.word.toNat_lt
  unfold dataOffset
  rw [UInt16.toNat_toUInt8, UInt16.toNat_shiftRight]
  show (s.word.toNat >>> 12) % 256 = _
  rw [Nat.shiftRight_eq_div_pow]
  omega

/-- The word that is written: without the reserved bits. -/
theorem toNat_word (s : Segment) :
    ((s.word &&& 0x1ff) ||| s.dataOffset.toUInt16 <<< (12 : UInt16) : UInt16).toNat =
      s.word.toNat / 4096 * 4096 + s.word.toNat % 512 := by
  have hlt := s.word.toNat_lt
  have hoffset := s.toNat_dataOffset
  have hflags : (s.word &&& 0x1ff).toNat = s.word.toNat % 512 := by
    rw [UInt16.toNat_and]
    exact Nat.and_two_pow_sub_one_eq_mod _ 9
  have hshift : (s.dataOffset.toUInt16 <<< 12).toNat = (s.word.toNat / 4096) <<< 12 := by
    rw [UInt16.toNat_shiftLeft, UInt8.toNat_toUInt16, hoffset]
    show (s.word.toNat / 4096) <<< 12 % 65536 = _
    rw [Nat.shiftLeft_eq]
    omega
  rw [UInt16.toNat_or, hflags, hshift, Nat.or_comm, ← Nat.shiftLeft_add_eq_or_of_lt (by omega),
    Nat.shiftLeft_eq]

/-- The word and the checksum, the options and their padding, of a segment that is written. -/
def rewritten (s : Segment) (word checksum : UInt16) (options : List UInt8) : Segment where
  sourcePort := s.sourcePort
  destinationPort := s.destinationPort
  sequence := s.sequence
  acknowledge := s.acknowledge
  word := word
  windowSize := s.windowSize
  checksum := checksum
  urgentPointer := s.urgentPointer
  options := options
  body := s.body

theorem length_bytes (s : Segment) : s.bytes.length = 20 + s.options.length + s.body.length := by
  simp only [bytes, List.length_append, length_bytesOf]
  omega

theorem bytes_rewritten_iff {s : Segment} {word checksum : UInt16} :
    (s.rewritten word checksum s.options).bytes = s.bytes ↔ word = s.word ∧ checksum = s.checksum := by
  unfold bytes rewritten
  simp only [List.append_right_inj]
  constructor
  · intro h
    obtain ⟨hword, hrest⟩ := List.append_inj h (by rw [length_bytesOf, length_bytesOf])
    rw [List.append_right_inj] at hrest
    obtain ⟨hchecksum, -⟩ := List.append_inj hrest (by rw [length_bytesOf, length_bytesOf])
    exact ⟨bytesOf_short_inj.1 hword, bytesOf_short_inj.1 hchecksum⟩
  · rintro ⟨rfl, rfl⟩
    rfl

/-- The fields of a segment, by their place. -/
theorem shortAt_word (s : Segment) : shortAt s.bytes 12 = s.word := by
  have hbytes : s.bytes = (bytesOf 2 s.sourcePort.toNat ++ bytesOf 2 s.destinationPort.toNat ++
      bytesOf 4 s.sequence.toNat ++ bytesOf 4 s.acknowledge.toNat) ++ (bytesOf 2 s.word.toNat ++
      (bytesOf 2 s.windowSize.toNat ++ (bytesOf 2 s.checksum.toNat ++ (bytesOf 2 s.urgentPointer.toNat ++
      (s.options ++ s.body))))) := by simp [bytes]
  rw [hbytes]
  exact shortAt_append_bytesOf _ _ _

theorem shortAt_checksum (s : Segment) : shortAt s.bytes 16 = s.checksum := by
  have hbytes : s.bytes = (bytesOf 2 s.sourcePort.toNat ++ bytesOf 2 s.destinationPort.toNat ++
      bytesOf 4 s.sequence.toNat ++ bytesOf 4 s.acknowledge.toNat ++ bytesOf 2 s.word.toNat ++
      bytesOf 2 s.windowSize.toNat) ++ (bytesOf 2 s.checksum.toNat ++
      (bytesOf 2 s.urgentPointer.toNat ++ (s.options ++ s.body))) := by simp [bytes]
  rw [hbytes]
  exact shortAt_append_bytesOf _ _ _

/-- The segment as it is decoded and written, with the data offset that is set then. -/
theorem layout_bytes (s : Segment) (checksum : UInt16) :
    (s.decoded.setDataOffset.layout s.body).bytes checksum =
      (s.rewritten ((s.word &&& 0x1ff) ||| s.decoded.setDataOffset.dataOffset.toUInt16 <<< (12 : UInt16))
        checksum s.decoded.setDataOffset.optionBytes).bytes := by
  unfold Layout.bytes TCP.layout bytes rewritten
  simp only [List.append_assoc]
  rfl

/-! ### When it stays -/

theorem setDataOffset_eq {s : Segment} (h : 5 ≤ s.dataOffset.toNat) :
    s.decoded.setDataOffset = s.decoded := by
  have hne : s.decoded.dataOffset ≠ 0 := by
    intro hzero
    have : s.dataOffset.toNat = 0 := congrArg UInt8.toNat hzero
    omega
  exact TCP.setDataOffset_of_ne hne

theorem offset_decoded (s : Segment) : s.decoded.offset = s.dataOffset.toNat := by
  have hlt := s.word.toNat_lt
  have hoffset := s.toNat_dataOffset
  show s.dataOffset.toInt8.toInt = _
  rw [toInt_byte, if_pos (by omega)]

theorem lt_dataOffset {s : Segment} : 5 < s.dataOffset ↔ 5 < s.dataOffset.toNat := Iff.rfl

theorem optionBytes_eq {s : Segment} (hsplit : s.Split) (h : 5 ≤ s.dataOffset.toNat) :
    s.decoded.optionBytes =
      s.options ++ List.replicate (s.dataOffset.toNat * 4 - 20 - s.options.length) 0 := by
  unfold Split at hsplit
  unfold TCP.optionBytes
  rw [offset_decoded]
  by_cases hlt : 5 < s.dataOffset
  · have hlt' := lt_dataOffset.1 hlt
    have hoptions : s.decoded.options = some s.options := if_pos hlt
    have hsub : ((s.dataOffset.toNat : ℤ) * 4 - 20 - s.options.length).toNat =
        s.dataOffset.toNat * 4 - 20 - s.options.length := by omega
    rw [if_pos (by omega), hoptions, Option.getD_some, hsub]
  · have hnot := mt lt_dataOffset.2 hlt
    rw [if_neg hlt] at hsplit
    have hnil := List.eq_nil_of_length_eq_zero hsplit
    rw [if_neg (by omega), hnil, List.length_nil, show s.dataOffset.toNat * 4 - 20 - 0 = 0 by omega]
    rfl

theorem fits_decoded {s : Segment} (hsplit : s.Split) (h : 5 ≤ s.dataOffset.toNat) : s.decoded.Fits := by
  constructor
  · rw [offset_decoded]
    omega
  · intro hlt
    rw [offset_decoded] at hlt ⊢
    have hlt' : 5 < s.dataOffset := lt_dataOffset.2 (by omega)
    unfold Split at hsplit
    rw [if_pos hlt'] at hsplit
    exact ⟨s.options, if_pos hlt', by omega⟩

end Segment

namespace TCP

structure Kept (pseudo payload padding : List UInt8) : Prop where
  padding : padding = []
  le : 20 ≤ payload.length
  five : 5 ≤ (shortAt payload 12).toNat / 4096
  options : (shortAt payload 12).toNat / 4096 * 4 ≤ payload.length
  reserved : (shortAt payload 12).toNat / 512 % 8 = 0
  checksum : Stays (shortAt payload 16) (pseudo ++ payload)

/-- A segment whose header has at least five words. -/
theorem sent_iff {s : Segment} {parent : IPv4} {payload padding : List UInt8} (hsplit : s.Split)
    (h : 5 ≤ s.dataOffset.toNat) (hbytes : s.bytes = payload ++ padding) (hlt : payload.length < 32768) :
    (s.decoded.sent (some parent)).bytes = payload ↔
      Kept (parent.pseudoHeaderBytes payload.length) payload padding := by
  have hlayout := s.layout_bytes
  rw [Segment.setDataOffset_eq h, Segment.optionBytes_eq hsplit h] at hlayout
  have hlength := s.length_bytes
  rw [hbytes, List.length_append] at hlength
  have hoffset := s.toNat_dataOffset
  have hword := s.toNat_word
  have hdecoded : s.decoded.bytes = (s.decoded.layout s.body).bytes s.checksum := rfl
  -- with no zeros behind the options, all the bytes are those of the segment, but for the word
  have hsame : s.dataOffset.toNat * 4 - 20 - s.options.length = 0 → s.word.toNat / 512 % 8 = 0 →
      ∀ c, (s.decoded.layout s.body).bytes c = (s.rewritten s.word c s.options).bytes := by
    intro hzeros hreserved c
    have hsameWord : (s.word &&& 0x1ff) ||| s.dataOffset.toUInt16 <<< (12 : UInt16) = s.word := by
      rw [← UInt16.toNat_inj, hword]
      omega
    rw [hlayout, hzeros, List.replicate_zero, List.append_nil]
    exact congrArg (fun w => (s.rewritten w c s.options).bytes) hsameWord
  have hseal : padding = [] → s.decoded.bytes = s.bytes →
      ((s.decoded.sent (some parent)).checksum = s.checksum ↔
        Stays s.checksum (parent.pseudoHeaderBytes payload.length ++ payload)) := by
    rintro rfl hall
    rw [List.append_nil] at hbytes
    have hpseudo : wordSum (parent.pseudoHeaderBytes payload.length) < 1073741824 :=
      wordSum_lt (by rw [IPv4.length_pseudoHeaderBytes]; omega)
    have hpayload := wordSum_lt hlt
    unfold sent
    rw [hall, hbytes]
    exact checksumOf_eq_iff (by rw [IPv4.length_pseudoHeaderBytes])
      (parent.toNat_pseudoHeader (by omega)) (by omega)
  constructor
  · intro hsent
    have hbytes' : (s.decoded.layout s.body).bytes (s.decoded.sent (some parent)).checksum = payload :=
      hsent
    rw [hlayout] at hbytes'
    have hlength' := congrArg List.length hbytes'
    rw [Segment.length_bytes] at hlength'
    simp only [Segment.rewritten, List.length_append, List.length_replicate] at hlength'
    have hnil : padding = [] := List.eq_nil_of_length_eq_zero (by omega)
    have hzeros : s.dataOffset.toNat * 4 - 20 - s.options.length = 0 := by omega
    subst hnil
    rw [List.append_nil] at hbytes
    rw [hzeros, List.replicate_zero, List.append_nil, ← hbytes, Segment.bytes_rewritten_iff] at hbytes'
    obtain ⟨hsameWord, hsameChecksum⟩ := hbytes'
    have hreserved : s.word.toNat / 512 % 8 = 0 := by
      have := congrArg UInt16.toNat hsameWord
      rw [show s.decoded.dataOffset = s.dataOffset from rfl, hword] at this
      omega
    have hall : s.decoded.bytes = s.bytes := by
      rw [hdecoded, hsame hzeros hreserved, Segment.bytes_rewritten_iff]
      exact ⟨rfl, rfl⟩
    have hstays := (hseal rfl hall).1 hsameChecksum
    have hfield := s.shortAt_word
    have hfield' := s.shortAt_checksum
    rw [hbytes] at hfield hfield'
    exact ⟨rfl, by simp at hlength; omega, by rw [hfield]; omega, by rw [hfield]; simp at hlength; omega,
      by rw [hfield]; exact hreserved, by rw [hfield']; exact hstays⟩
  · rintro ⟨rfl, hle, hfive, hoptions, hreserved, hstays⟩
    rw [List.append_nil] at hbytes
    have hfield := s.shortAt_word
    have hfield' := s.shortAt_checksum
    rw [hbytes] at hfield hfield'
    rw [hfield] at hfive hoptions hreserved
    rw [hfield'] at hstays
    have hzeros : s.dataOffset.toNat * 4 - 20 - s.options.length = 0 := by
      unfold Segment.Split at hsplit
      rw [List.length_append] at hsplit
      rw [List.length_nil] at hlength
      split_ifs at hsplit with hlt'
      · omega
      · have := mt Segment.lt_dataOffset.2 hlt'
        omega
    have hall : s.decoded.bytes = s.bytes := by
      rw [hdecoded, hsame hzeros hreserved, Segment.bytes_rewritten_iff]
      exact ⟨rfl, rfl⟩
    have hsameChecksum := (hseal rfl hall).2 hstays
    show (s.decoded.layout s.body).bytes (s.decoded.sent (some parent)).checksum = payload
    rw [hsameChecksum, ← hdecoded, hall, hbytes]

/-- A header with fewer words is not written, or with another word. -/
theorem not_sent {s : Segment} {parent : IPv4} {payload padding : List UInt8}
    (h : s.dataOffset.toNat < 5) (hbytes : s.bytes = payload ++ padding) (hsplit : s.Split)
    (hfits : s.decoded.setDataOffset.Fits) :
    (s.decoded.setDataOffset.sent (some parent)).bytes ≠ payload := by
  intro hsent
  by_cases hzero : s.dataOffset = 0
  · have hset : s.decoded.setDataOffset.dataOffset = 5 := if_pos hzero
    have hsent' : (s.decoded.setDataOffset.layout s.body).bytes
        (s.decoded.setDataOffset.sent (some parent)).checksum = payload := hsent
    have hoptionBytes : s.decoded.setDataOffset.optionBytes = [] := by
      unfold optionBytes offset
      rw [hset]
      rfl
    have hnil : s.options = [] := by
      unfold Segment.Split at hsplit
      rw [if_neg (mt Segment.lt_dataOffset.1 (by omega))] at hsplit
      exact List.eq_nil_of_length_eq_zero hsplit
    have hlength := s.length_bytes
    have hlength' := congrArg List.length hsent'
    rw [Segment.layout_bytes, Segment.length_bytes, hoptionBytes] at hlength'
    rw [hbytes, hnil, List.length_append] at hlength
    simp only [Segment.rewritten] at hlength'
    have hpadding : padding = [] := List.eq_nil_of_length_eq_zero (by omega)
    rw [hpadding, List.append_nil] at hbytes
    rw [Segment.layout_bytes, hoptionBytes, ← hnil, ← hbytes, Segment.bytes_rewritten_iff, hset] at hsent'
    have hword := congrArg UInt16.toNat hsent'.1
    have hoffset := s.toNat_dataOffset
    have hle : 0x5000 ≤ ((s.word &&& 0x1ff) ||| (5 : UInt8).toUInt16 <<< (12 : UInt16) : UInt16).toNat := by
      rw [UInt16.toNat_or]
      exact Nat.right_le_or
    omega
  · have hset : s.decoded.setDataOffset = s.decoded := setDataOffset_of_ne hzero
    have hle := hfits.le
    rw [hset, Segment.offset_decoded] at hle
    omega

theorem kept_iff (front : List UInt8) {payload padding : List UInt8} {parent : IPv4} (hlt : payload.length < 32768) :
    (∃ p : TCP, TCP.deserialize (front ++ (payload ++ padding)) front.length
        (payload ++ padding).length = .ok p ∧ p.setDataOffset.Fits ∧
        (p.setDataOffset.sent (some parent)).bytes = payload) ↔
      Kept (parent.pseudoHeaderBytes payload.length) payload padding := by
  by_cases hle : 20 ≤ (payload ++ padding).length
  · obtain ⟨s, hsplit, hbytes⟩ := Segment.exists_bytes hle
    have hdecode := Segment.deserialize_eq hsplit (congrArg (front ++ ·) hbytes.symm)
    rw [hbytes] at hdecode
    by_cases h : 5 ≤ s.dataOffset.toNat
    · rw [← sent_iff hsplit h hbytes hlt]
      constructor
      · rintro ⟨p, hp, -, hsent⟩
        cases hdecode.symm.trans hp
        rwa [Segment.setDataOffset_eq h] at hsent
      · intro hsent
        refine ⟨s.decoded, hdecode, ?_, ?_⟩
        · rw [Segment.setDataOffset_eq h]
          exact Segment.fits_decoded hsplit h
        · rwa [Segment.setDataOffset_eq h]
    · constructor
      · rintro ⟨p, hp, hfits, hsent⟩
        cases hdecode.symm.trans hp
        exact absurd hsent (not_sent (by omega) hbytes hsplit hfits)
      · rintro ⟨rfl, -, hfive, -⟩
        have hoffset := s.toNat_dataOffset
        have hfield := s.shortAt_word
        rw [hbytes, List.append_nil] at hfield
        rw [hfield] at hfive
        omega
  · have herror : TCP.deserialize (front ++ (payload ++ padding)) front.length
        (payload ++ padding).length = .error .exception := by
      have hdecides := TCP.decides (front ++ (payload ++ padding)) front.length
        (payload ++ padding).length List.length_append.ge
      rw [slice_append] at hdecides
      exact hdecides.2 hle
    rw [herror]
    constructor
    · rintro ⟨q, hq, -⟩
      exact nomatch hq
    · rintro ⟨rfl, hle', -⟩
      rw [List.append_nil] at hle
      exact absurd hle' hle

end TCP

/-! ## UDP -/

namespace UDP

/-- A payload that is not decoded. -/
structure DataKept (pseudo payload padding : List UInt8) : Prop where
  padding : padding = []
  le : 8 ≤ payload.length
  length : (shortAt payload 4).toNat = payload.length
  checksum : Stays (shortAt payload 6) (pseudo ++ payload)

/-- The segment without its checksum. -/
def cleared (payload : List UInt8) : List UInt8 := payload.take 6 ++ bytesOf 2 0 ++ payload.drop 8

/-- A DHCP message is given back by its own encoder, and the checksum is the one that is computed. -/
structure DhcpKept (pseudo payload padding : List UInt8) : Prop where
  le : 8 ≤ payload.length
  length : (shortAt payload 4).toNat = payload.length
  checksum : (shortAt payload 6).toNat = 65535 - carry (wordSum (pseudo ++ cleared payload)) % 65536
  message : DHCP.Kept (payload.drop 8) padding

def isDhcpPort (payload : List UInt8) : Bool :=
  decodeMap (shortAt payload 2) || decodeMap (shortAt payload 0)

def Kept (pseudo payload padding : List UInt8) : Prop :=
  if isDhcpPort payload then DhcpKept pseudo payload padding else DataKept pseudo payload padding

theorem Kept.le {pseudo payload padding : List UInt8} (h : Kept pseudo payload padding) :
    8 ≤ payload.length := by
  unfold Kept at h
  split_ifs at h
  · exact h.le
  · exact h.le

/-- The fields of a segment, in their order. -/
def fieldBytes (sourcePort destinationPort length checksum : UInt16) (body : List UInt8) : List UInt8 :=
  bytesOf 2 sourcePort.toNat ++ (bytesOf 2 destinationPort.toNat ++
    (bytesOf 2 length.toNat ++ (bytesOf 2 checksum.toNat ++ body)))

variable {sourcePort destinationPort length checksum : UInt16} {body : List UInt8}

theorem layout_bytes (p : UDP) (body : List UInt8) (checksum : UInt16) : (p.layout body).bytes checksum =
    fieldBytes p.sourcePort p.destinationPort p.length checksum body := by
  unfold Layout.bytes layout fieldBytes
  simp only [List.append_assoc]

theorem length_fieldBytes :
    (fieldBytes sourcePort destinationPort length checksum body).length = 8 + body.length := by
  simp only [fieldBytes, List.length_append, length_bytesOf]
  omega

theorem exists_fieldBytes {bs : List UInt8} (h : 8 ≤ bs.length) :
    ∃ sourcePort destinationPort length checksum body,
      bs = fieldBytes sourcePort destinationPort length checksum body := by
  obtain ⟨sourcePort, bs₁, rfl, h₁⟩ := exists_short bs (by omega)
  obtain ⟨destinationPort, bs₂, rfl, h₂⟩ := exists_short bs₁ (by omega)
  obtain ⟨length, bs₃, rfl, h₃⟩ := exists_short bs₂ (by omega)
  obtain ⟨checksum, body, rfl, h₄⟩ := exists_short bs₃ (by omega)
  exact ⟨sourcePort, destinationPort, length, checksum, body, rfl⟩

theorem shortAt_sourcePort :
    shortAt (fieldBytes sourcePort destinationPort length checksum body) 0 = sourcePort :=
  shortAt_bytesOf _ _

theorem shortAt_destinationPort :
    shortAt (fieldBytes sourcePort destinationPort length checksum body) 2 = destinationPort :=
  shortAt_append_bytesOf (bytesOf 2 sourcePort.toNat) _ _

theorem shortAt_length :
    shortAt (fieldBytes sourcePort destinationPort length checksum body) 4 = length := by
  unfold fieldBytes
  rw [← List.append_assoc]
  exact shortAt_append_bytesOf (bytesOf 2 sourcePort.toNat ++ bytesOf 2 destinationPort.toNat) _ _

theorem shortAt_checksum :
    shortAt (fieldBytes sourcePort destinationPort length checksum body) 6 = checksum := by
  unfold fieldBytes
  rw [← List.append_assoc, ← List.append_assoc]
  exact shortAt_append_bytesOf (bytesOf 2 sourcePort.toNat ++ bytesOf 2 destinationPort.toNat ++
    bytesOf 2 length.toNat) _ _

theorem drop_fieldBytes : (fieldBytes sourcePort destinationPort length checksum body).drop 8 = body := by
  have hsplit : fieldBytes sourcePort destinationPort length checksum body =
      (bytesOf 2 sourcePort.toNat ++ bytesOf 2 destinationPort.toNat ++ bytesOf 2 length.toNat ++
        bytesOf 2 checksum.toNat) ++ body := by
    simp [fieldBytes]
  rw [hsplit, List.drop_left']
  simp [length_bytesOf]

theorem cleared_fieldBytes : cleared (fieldBytes sourcePort destinationPort length checksum body) =
    fieldBytes sourcePort destinationPort length 0 body := by
  have hsplit : fieldBytes sourcePort destinationPort length checksum body =
      (bytesOf 2 sourcePort.toNat ++ bytesOf 2 destinationPort.toNat ++ bytesOf 2 length.toNat) ++
        (bytesOf 2 checksum.toNat ++ body) := by
    simp [fieldBytes]
  unfold cleared
  rw [drop_fieldBytes, hsplit, List.take_left' (by simp [length_bytesOf])]
  simp [fieldBytes]

theorem fieldBytes_inj {length' checksum' : UInt16} {body' : List UInt8} :
    fieldBytes sourcePort destinationPort length checksum body =
      fieldBytes sourcePort destinationPort length' checksum' body' ↔
      length = length' ∧ checksum = checksum' ∧ body = body' := by
  unfold fieldBytes
  rw [List.append_right_inj, List.append_right_inj]
  constructor
  · intro h
    obtain ⟨hlength, hrest⟩ := List.append_inj h (by rw [length_bytesOf, length_bytesOf])
    obtain ⟨hchecksum, hbody⟩ := List.append_inj hrest (by rw [length_bytesOf, length_bytesOf])
    exact ⟨bytesOf_short_inj.1 hlength, bytesOf_short_inj.1 hchecksum, hbody⟩
  · rintro ⟨rfl, rfl, rfl⟩
    rfl

/-! ### When it stays -/

theorem bytes_sent (p : UDP) (parent : Option IPv4) : (p.prepared.sent parent).bytes =
    fieldBytes p.sourcePort p.destinationPort (.ofNat (8 + p.body.length))
      (p.prepared.sent parent).checksum p.body := layout_bytes _ _ _

theorem bytes_prepared (p : UDP) : p.prepared.bytes =
    fieldBytes p.sourcePort p.destinationPort (.ofNat (8 + p.body.length)) p.prepared.checksum p.body :=
  layout_bytes _ _ _

theorem toNat_length {n : ℕ} (h : n < 32768) : (UInt16.ofNat n).toNat = n := by
  rw [UInt16.toNat_ofNat']
  omega

variable {payload padding : List UInt8}

theorem data_iff (parent : IPv4) {p : UDP} {data : Data} (hpayload : p.payload = some (.data data))
    (hbytes : fieldBytes p.sourcePort p.destinationPort p.length p.checksum data.data = payload ++ padding)
    (hlt : payload.length < 32768) :
    (p.prepared.sent (some parent)).bytes = payload ↔
      DataKept (parent.pseudoHeaderBytes payload.length) payload padding := by
  have hbody : p.body = data.data := by
    unfold body
    rw [hpayload]
    rfl
  have hchecksum : p.prepared.checksum = p.checksum := by
    have hdhcp : p.isDhcp = false := by
      unfold isDhcp
      rw [hpayload]
    show (if p.isDhcp then 0 else p.checksum) = p.checksum
    rw [hdhcp]
    rfl
  have hlength : (payload ++ padding).length = 8 + data.data.length := by
    rw [← hbytes, length_fieldBytes]
  have hsent := p.bytes_sent (some parent)
  have hprepared := p.bytes_prepared
  rw [hbody] at hsent hprepared
  rw [hchecksum] at hprepared
  have hseal : padding = [] → p.prepared.bytes = payload →
      ((p.prepared.sent (some parent)).checksum = p.checksum ↔
        Stays p.checksum (parent.pseudoHeaderBytes payload.length ++ payload)) := by
    rintro rfl hall
    have hpseudo : wordSum (parent.pseudoHeaderBytes payload.length) < 1073741824 :=
      wordSum_lt (by rw [IPv4.length_pseudoHeaderBytes]; omega)
    have hpayload := wordSum_lt hlt
    show checksumOf p.prepared.checksum _ p.prepared.bytes = _ ↔ _
    rw [hall, hchecksum]
    exact checksumOf_eq_iff (by rw [IPv4.length_pseudoHeaderBytes])
      (parent.toNat_pseudoHeader (by omega)) (by omega)
  constructor
  · intro h
    rw [hsent] at h
    have hlength' := congrArg List.length h
    rw [length_fieldBytes] at hlength'
    rw [List.length_append] at hlength
    obtain rfl : padding = [] := List.eq_nil_of_length_eq_zero (by omega)
    rw [List.append_nil] at hbytes
    rw [← hbytes] at h
    obtain ⟨hsame, hsameChecksum, -⟩ := fieldBytes_inj.1 h
    rw [hsame, hbytes] at hprepared
    have hfield : shortAt payload 4 = p.length := by rw [← hbytes, shortAt_length]
    have hfield' : shortAt payload 6 = p.checksum := by rw [← hbytes, shortAt_checksum]
    refine ⟨rfl, by omega, ?_, ?_⟩
    · rw [hfield, ← hsame, toNat_length (by omega)]
      omega
    · rw [hfield']
      exact (hseal rfl hprepared).1 hsameChecksum
  · rintro ⟨rfl, hle, hfield, hstays⟩
    rw [List.append_nil] at hbytes hlength
    rw [← hbytes, shortAt_length, hbytes, hlength] at hfield
    have hsame : UInt16.ofNat (8 + data.data.length) = p.length := by
      rw [← UInt16.toNat_inj, toNat_length (by omega), hfield]
    rw [hsame, hbytes] at hprepared
    have hfield' : shortAt payload 6 = p.checksum := by rw [← hbytes, shortAt_checksum]
    rw [hfield'] at hstays
    rw [hsent, (hseal rfl hprepared).2 hstays, hsame, hbytes]

theorem fieldBytes_append (rest : List UInt8) :
    fieldBytes sourcePort destinationPort length checksum body ++ rest =
      fieldBytes sourcePort destinationPort length checksum (body ++ rest) := by
  simp [fieldBytes]

theorem dhcp_iff (parent : IPv4) {p : UDP} {message : DHCP} {rest : List UInt8}
    (hpayload : p.payload = some (.dhcp message))
    (hbytes : fieldBytes p.sourcePort p.destinationPort p.length p.checksum rest = payload ++ padding)
    (hlt : payload.length < 32768) :
    (p.prepared.sent (some parent)).bytes = payload ↔
      8 ≤ payload.length ∧ (shortAt payload 4).toNat = payload.length ∧
        (shortAt payload 6).toNat = 65535 - carry (wordSum (parent.pseudoHeaderBytes payload.length ++
          cleared payload)) % 65536 ∧ message.bytes = payload.drop 8 := by
  have hbody : p.body = message.bytes := by
    unfold body
    rw [hpayload]
  have hchecksum : p.prepared.checksum = 0 := by
    have hdhcp : p.isDhcp = true := by
      unfold isDhcp
      rw [hpayload]
    show (if p.isDhcp then 0 else p.checksum) = 0
    rw [hdhcp]
    rfl
  have hsent := p.bytes_sent (some parent)
  have hprepared := p.bytes_prepared
  rw [hbody] at hsent hprepared
  rw [hchecksum] at hprepared
  have hseal : 8 + message.bytes.length < 32768 → (p.prepared.sent (some parent)).checksum.toNat =
      65535 - carry (wordSum (parent.pseudoHeaderBytes (8 + message.bytes.length) ++
        p.prepared.bytes)) % 65536 := by
    intro hlt'
    have hlength : p.prepared.bytes.length = 8 + message.bytes.length := by
      rw [hprepared, length_fieldBytes]
    have hpseudo : wordSum (parent.pseudoHeaderBytes (8 + message.bytes.length)) < 1073741824 :=
      wordSum_lt (by rw [IPv4.length_pseudoHeaderBytes]; omega)
    have hsum : wordSum p.prepared.bytes < 1073741824 := wordSum_lt (by omega)
    show (checksumOf p.prepared.checksum (pseudoHeader (some parent) p.prepared.bytes.length)
      p.prepared.bytes).toNat = _
    have hmod : (wordSum (parent.pseudoHeaderBytes (8 + message.bytes.length)) +
        wordSum p.prepared.bytes) % 2 ^ 32 =
        wordSum (parent.pseudoHeaderBytes (8 + message.bytes.length)) + wordSum p.prepared.bytes :=
      Nat.mod_eq_of_lt (by omega)
    unfold checksumOf
    rw [if_pos hchecksum, toNat_complement, UInt32.toNat_add, UInt32.toNat_ofNat', hlength,
      parent.toNat_pseudoHeader (by omega), wordSum_append _ (by rw [IPv4.length_pseudoHeaderBytes]),
      Nat.add_mod_mod, hmod]
  constructor
  · intro h
    rw [hsent] at h
    have hlength := congrArg List.length h
    rw [length_fieldBytes] at hlength
    have hseal' := hseal (by omega)
    rw [hprepared] at hseal'
    rw [← h, shortAt_length, shortAt_checksum, cleared_fieldBytes, drop_fieldBytes, length_fieldBytes]
    exact ⟨by omega, toNat_length (by omega), hseal', rfl⟩
  · rintro ⟨hle, hfield, hfield', hmessage⟩
    obtain ⟨sourcePort, destinationPort, length, checksum, body, rfl⟩ := exists_fieldBytes hle
    rw [fieldBytes_append] at hbytes
    have hsource := congrArg (shortAt · 0) hbytes
    have hdestination := congrArg (shortAt · 2) hbytes
    rw [shortAt_sourcePort, shortAt_sourcePort] at hsource
    rw [shortAt_destinationPort, shortAt_destinationPort] at hdestination
    rw [length_fieldBytes] at hlt
    rw [shortAt_length, length_fieldBytes] at hfield
    rw [shortAt_checksum, cleared_fieldBytes, length_fieldBytes] at hfield'
    rw [drop_fieldBytes] at hmessage
    rw [hmessage] at hsent hprepared hseal
    have hsame : UInt16.ofNat (8 + body.length) = length := by
      rw [← UInt16.toNat_inj, toNat_length hlt, hfield]
    rw [hsame, hsource, hdestination] at hsent hprepared
    have hseal' := hseal hlt
    rw [hprepared, ← hfield', UInt16.toNat_inj] at hseal'
    rw [hsent, hseal']

theorem deserializePayload_eq {destinationPort sourcePort : UInt16} (front body : List UInt8) :
    deserializePayload destinationPort sourcePort (front ++ body) front.length body.length =
      if decodeMap destinationPort || decodeMap sourcePort then
        .dhcp <$> DHCP.deserialize body 0 body.length
      else .ok (.data ⟨body⟩) := by
  unfold deserializePayload
  rw [DHCP.deserialize_append, Data.deserialize_eq body rfl]
  cases decodeMap destinationPort <;> cases decodeMap sourcePort <;> rfl

theorem deserialize_fields (front : List UInt8) (hfields : payload ++ padding =
      fieldBytes sourcePort destinationPort length checksum body) :
    UDP.deserialize (front ++ (payload ++ padding)) front.length (payload ++ padding).length =
      (fun payload => ⟨sourcePort, destinationPort, length, checksum, some payload⟩) <$>
        if decodeMap destinationPort || decodeMap sourcePort then
          .dhcp <$> DHCP.deserialize body 0 body.length
        else .ok (.data ⟨body⟩) := by
  have hdata : front ++ (payload ++ padding) =
      (front ++ fieldBytes sourcePort destinationPort length checksum []) ++ body := by
    rw [hfields, List.append_assoc, fieldBytes_append, List.nil_append]
  have hfront : front.length + 8 =
      (front ++ fieldBytes sourcePort destinationPort length checksum []).length := by
    rw [List.length_append, length_fieldBytes]
    rfl
  have hdecode : UDP.deserialize (front ++ (payload ++ padding)) front.length _ = _ :=
    UDP.deserialize_eq hfields rfl
  rw [hfront] at hdecode
  conv_rhs at hdecode => rw [hdata]
  rwa [deserializePayload_eq] at hdecode

/-- The ports and the body are those of the payload, if its header is not cut off. -/
theorem fields_of_le (hfields : payload ++ padding =
      fieldBytes sourcePort destinationPort length checksum body) (hle : 8 ≤ payload.length) :
    shortAt payload 0 = sourcePort ∧ shortAt payload 2 = destinationPort ∧
      payload.drop 8 ++ padding = body := by
  obtain ⟨sourcePort', destinationPort', length', checksum', body', rfl⟩ := exists_fieldBytes hle
  rw [fieldBytes_append] at hfields
  have hsource := congrArg (shortAt · 0) hfields
  have hdestination := congrArg (shortAt · 2) hfields
  have hbody := congrArg (List.drop 8) hfields
  rw [shortAt_sourcePort, shortAt_sourcePort] at hsource
  rw [shortAt_destinationPort, shortAt_destinationPort] at hdestination
  rw [drop_fieldBytes, drop_fieldBytes] at hbody
  rw [shortAt_sourcePort, shortAt_destinationPort, drop_fieldBytes]
  exact ⟨hsource, hdestination, hbody⟩

/-- A segment is decoded as DHCP by its ports. -/
theorem isDhcp_eq {front : List UInt8} {p : UDP} (hp : UDP.deserialize (front ++ (payload ++ padding))
      front.length (payload ++ padding).length = .ok p) (hle : 8 ≤ payload.length) :
    p.isDhcp = isDhcpPort payload := by
  have hwhole : 8 ≤ (payload ++ padding).length := by
    rw [List.length_append]
    omega
  obtain ⟨sourcePort, destinationPort, length, checksum, body, hfields⟩ := exists_fieldBytes hwhole
  obtain ⟨hsource, hdestination, -⟩ := fields_of_le hfields hle
  rw [deserialize_fields front hfields] at hp
  unfold isDhcpPort
  rw [hsource, hdestination]
  split_ifs at hp with hdhcp
  · rw [hdhcp]
    cases hmessage : DHCP.deserialize body 0 body.length with
    | error e =>
      rw [hmessage] at hp
      exact nomatch hp
    | ok message =>
      rw [hmessage] at hp
      cases hp
      rfl
  · rw [Bool.eq_false_iff.2 hdhcp]
    cases hp
    rfl

/-- The packet that the payload is in, when its checksum is computed. -/
theorem preparedParent_eq (p : UDP) (ip : IPv4) :
    ∃ parent, p.preparedParent (some ip) = some parent ∧
      parent.pseudoHeaderBytes = (ip.setProtocol IPv4.protocolUdp).pseudoHeaderBytes := by
  unfold preparedParent
  split_ifs
  · exact ⟨_, rfl, rfl⟩
  · exact ⟨_, rfl, rfl⟩

theorem kept_iff (front : List UInt8) {ip : IPv4} (hlt : payload.length < 32768) :
    (∃ p : UDP, UDP.deserialize (front ++ (payload ++ padding)) front.length
        (payload ++ padding).length = .ok p ∧ p.Fits ∧
        (p.prepared.sent (p.preparedParent (some ip))).bytes = payload) ↔
      Kept ((ip.setProtocol IPv4.protocolUdp).pseudoHeaderBytes payload.length) payload padding := by
  by_cases hle : 8 ≤ (payload ++ padding).length
  · obtain ⟨sourcePort, destinationPort, length, checksum, body, hfields⟩ := exists_fieldBytes hle
    rw [deserialize_fields front hfields]
    have hports : 8 ≤ payload.length →
        isDhcpPort payload = (decodeMap destinationPort || decodeMap sourcePort) := by
      intro hle'
      obtain ⟨hsource, hdestination, -⟩ := fields_of_le hfields hle'
      unfold isDhcpPort
      rw [hsource, hdestination]
    by_cases hdhcp : (decodeMap destinationPort || decodeMap sourcePort) = true
    · rw [if_pos hdhcp]
      constructor
      · rintro ⟨q, hq, hfits, hsent⟩
        cases hmessage : DHCP.deserialize body 0 body.length with
        | error e =>
          rw [hmessage] at hq
          exact nomatch hq
        | ok message =>
          rw [hmessage] at hq
          cases hq
          obtain ⟨parent, hparent, hpseudo⟩ := preparedParent_eq
            ⟨sourcePort, destinationPort, length, checksum, some (.dhcp message)⟩ ip
          rw [hparent] at hsent
          obtain ⟨hle', hlength, hchecksum, hsame⟩ := (dhcp_iff parent rfl hfields.symm hlt).1 hsent
          obtain ⟨-, -, hbody⟩ := fields_of_le hfields hle'
          unfold Kept
          rw [hports hle', if_pos hdhcp]
          refine ⟨hle', hlength, hpseudo ▸ hchecksum, (DHCP.kept_iff _ _).1 ⟨message, ?_, ?_⟩⟩
          · exact hbody.symm ▸ hmessage
          · rw [DHCP.serialize_eq (hfits.dhcp message rfl), hsame]
      · intro hkept
        have hle' : 8 ≤ payload.length := hkept.le
        unfold Kept at hkept
        rw [hports hle', if_pos hdhcp] at hkept
        obtain ⟨-, hlength, hchecksum, hmessage⟩ := hkept
        obtain ⟨message, hmessage, hsame⟩ := (DHCP.kept_iff _ _).2 hmessage
        obtain ⟨-, -, hbody⟩ := fields_of_le hfields hle'
        rw [hbody] at hmessage
        have hfits : message.Fits := by
          by_contra hnot
          exact nomatch (DHCP.serialize_error hnot).symm.trans hsame
        have hbytes : message.bytes = payload.drop 8 :=
          Except.ok.inj ((DHCP.serialize_eq hfits).symm.trans hsame)
        obtain ⟨parent, hparent, hpseudo⟩ := preparedParent_eq
          ⟨sourcePort, destinationPort, length, checksum, some (.dhcp message)⟩ ip
        rw [hmessage]
        refine ⟨_, rfl, ⟨?_, ?_⟩, ?_⟩
        · rintro payload ⟨⟩
          exact hfits
        · show 8 + message.bytes.length < 32768
          rw [hbytes, List.length_drop]
          omega
        · rw [hparent]
          exact (dhcp_iff parent rfl hfields.symm hlt).2 ⟨hle', hlength, hpseudo.symm ▸ hchecksum, hbytes⟩
    · rw [if_neg hdhcp]
      obtain ⟨parent, hparent, hpseudo⟩ := preparedParent_eq
        ⟨sourcePort, destinationPort, length, checksum, some (.data ⟨body⟩)⟩ ip
      have hiff := data_iff parent (p := ⟨sourcePort, destinationPort, length, checksum,
        some (.data ⟨body⟩)⟩) rfl hfields.symm hlt
      rw [hpseudo] at hiff
      constructor
      · rintro ⟨q, hq, -, hsent⟩
        cases hq
        rw [hparent] at hsent
        have hkept := hiff.1 hsent
        unfold Kept
        rwa [hports hkept.le, if_neg hdhcp]
      · intro hkept
        have hle' : 8 ≤ payload.length := hkept.le
        unfold Kept at hkept
        rw [hports hle', if_neg hdhcp] at hkept
        refine ⟨_, rfl, ⟨nofun, ?_⟩, ?_⟩
        · have hlength := congrArg List.length hfields
          rw [length_fieldBytes, hkept.padding, List.append_nil] at hlength
          show 8 + body.length < 32768
          omega
        · rw [hparent]
          exact hiff.2 hkept
  · have herror : UDP.deserialize (front ++ (payload ++ padding)) front.length
        (payload ++ padding).length = .error .exception := by
      have hdecides := UDP.decides (front ++ (payload ++ padding)) front.length
        (payload ++ padding).length List.length_append.ge
      rw [slice_append] at hdecides
      exact hdecides.2 fun hwhole => hle hwhole.1
    have hlt' : ¬8 ≤ payload.length := by
      rw [List.length_append] at hle
      omega
    rw [herror]
    constructor
    · rintro ⟨q, hq, -⟩
      exact nomatch hq
    · exact fun h => absurd h.le hlt'

end UDP

end Torpedo
