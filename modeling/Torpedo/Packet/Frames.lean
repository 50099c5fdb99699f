import Torpedo.Packet.RoundTrip

/-!
# Frames with an IPv4 packet

A well-formed frame with an IPv4 packet that is decoded and written again is given back, but for its
padding and the checksum of the packet, exactly if it has no control bit in its tag, its total length is a
positive short and its payload is kept.
-/

namespace Torpedo

open OnesComplement

/-- A sum that folds to all ones is all ones after one carry. -/
theorem OnesComplement.carry_of_fold {n : ℕ} (h : fold n = 0xffff) (hlt : n < 4294901760) :
    carry n = 65535 := by
  obtain ⟨hne, hmod⟩ := (fold_eq_iff n).1 h
  unfold carry
  omega

namespace IPv4

namespace Header

/-- The lengths of the header are those of its options and of a payload, and its checksum verifies. -/
structure WellFormed (h : Header) (payload : List UInt8) : Prop where
  version : h.version >>> 4 = 4
  five : 5 ≤ h.headerLength.toNat
  options : h.options.length = (h.headerLength.toNat - 5) * 4
  totalLength : h.totalLength.toNat = h.bytes.length + payload.length
  checksum : fold (wordSum h.bytes) = 0xffff

/-- The pseudo header of a segment. -/
def pseudoHeaderBytes (h : Header) (length : ℕ) : List UInt8 :=
  bytesOf 4 h.sourceAddress.toNat ++ bytesOf 4 h.destinationAddress.toNat ++ [0, h.protocol] ++
    bytesOf 2 length

/-- The header with the length and the checksum that are written. -/
def rewritten (h : Header) (totalLength checksum : UInt16) : Header where
  version := h.version
  diffServ := h.diffServ
  totalLength := totalLength
  identification := h.identification
  sscratch := h.sscratch
  ttl := h.ttl
  protocol := h.protocol
  checksum := checksum
  sourceAddress := h.sourceAddress
  destinationAddress := h.destinationAddress
  options := h.options

/-- The header with the checksum that is computed if there is none. -/
def sealed (h : Header) : Header := h.rewritten h.totalLength (checksumOf h.checksum 0 h.bytes)

theorem WellFormed.split {h : Header} {payload : List UInt8} (hwf : h.WellFormed payload) : h.Split := by
  have hfive := hwf.five
  have hoptions := hwf.options
  unfold Split
  split_ifs with hlt
  · exact hoptions
  · have hnot : ¬5 < h.headerLength.toNat := hlt
    omega

/-! ### The words of two fields -/

theorem toNat_headerLength (h : Header) : h.headerLength.toNat = h.version.toNat % 16 := by
  unfold headerLength
  rw [UInt8.toNat_and]
  exact Nat.and_two_pow_sub_one_eq_mod _ 4

theorem version_eq (h : Header) :
    (h.version >>> 4 &&& 0xf) <<< 4 ||| h.headerLength &&& 0xf = h.version := by
  have hlt := h.version.toNat_lt
  have hlength := h.toNat_headerLength
  have hshift : (h.version >>> 4).toNat = h.version.toNat / 16 := by
    rw [UInt8.toNat_shiftRight]
    exact Nat.shiftRight_eq_div_pow _ 4
  have hhigh : ((h.version >>> 4 &&& 0xf) <<< 4).toNat = (h.version.toNat / 16) <<< 4 := by
    rw [UInt8.toNat_shiftLeft, UInt8.toNat_and, hshift]
    show (h.version.toNat / 16 &&& 2 ^ 4 - 1) <<< 4 % 256 = _
    rw [Nat.and_two_pow_sub_one_eq_mod, Nat.shiftLeft_eq, Nat.shiftLeft_eq]
    omega
  have hlow : (h.headerLength &&& 0xf).toNat = h.version.toNat % 16 := by
    rw [UInt8.toNat_and, hlength]
    exact (Nat.and_two_pow_sub_one_eq_mod _ 4).trans (Nat.mod_mod _ _)
  rw [← UInt8.toNat_inj, UInt8.toNat_or, hhigh, hlow, ← Nat.shiftLeft_add_eq_or_of_lt (by omega),
    Nat.shiftLeft_eq]
  omega

theorem sscratch_eq (h : Header) :
    ((h.sscratch >>> 13).toUInt8 &&& 0x7).toUInt16 <<< (13 : UInt16) ||| h.sscratch &&& 0x1fff &&& 0x1fff =
      h.sscratch := by
  have hlt := h.sscratch.toNat_lt
  have hshift : (h.sscratch >>> 13).toUInt8.toNat = h.sscratch.toNat / 8192 := by
    rw [UInt16.toNat_toUInt8, UInt16.toNat_shiftRight]
    show (h.sscratch.toNat >>> 13) % 256 = _
    rw [Nat.shiftRight_eq_div_pow]
    omega
  have hhigh : (((h.sscratch >>> 13).toUInt8 &&& 0x7).toUInt16 <<< (13 : UInt16)).toNat =
      (h.sscratch.toNat / 8192) <<< 13 := by
    rw [UInt16.toNat_shiftLeft, UInt8.toNat_toUInt16, UInt8.toNat_and, hshift]
    show (h.sscratch.toNat / 8192 &&& 2 ^ 3 - 1) <<< 13 % 65536 = _
    rw [Nat.and_two_pow_sub_one_eq_mod, Nat.shiftLeft_eq, Nat.shiftLeft_eq]
    omega
  have hlow : (h.sscratch &&& 0x1fff &&& 0x1fff).toNat = h.sscratch.toNat % 8192 := by
    rw [UInt16.toNat_and, UInt16.toNat_and]
    show (h.sscratch.toNat &&& 2 ^ 13 - 1) &&& 2 ^ 13 - 1 = _
    rw [Nat.and_two_pow_sub_one_eq_mod, Nat.and_two_pow_sub_one_eq_mod, Nat.mod_mod]
  rw [← UInt16.toNat_inj, UInt16.toNat_or, hhigh, hlow, ← Nat.shiftLeft_add_eq_or_of_lt (by omega),
    Nat.shiftLeft_eq]
  omega

end Header

/-! ## What is written of a header -/

/-- The header of a packet as it is written. -/
def headerOf (p : IPv4) : Header where
  version := (p.version &&& 0xf) <<< 4 ||| p.headerLength &&& 0xf
  diffServ := p.diffServ
  totalLength := p.totalLength
  identification := p.identification
  sscratch := (p.flags &&& 0x7).toUInt16 <<< 13 ||| p.fragmentOffset &&& 0x1fff
  ttl := p.ttl
  protocol := p.protocol
  checksum := p.checksum
  sourceAddress := p.sourceAddress
  destinationAddress := p.destinationAddress
  options := p.options.getD []

theorem bytes_eq (p : IPv4) : p.bytes = p.headerOf.bytes ++ p.body := by
  unfold bytes Layout.bytes layout Header.bytes headerOf
  simp

theorem length_headerOf (p : IPv4) : p.headerOf.bytes.length = 20 + p.optionsSize := p.headerOf.length_bytes

theorem headerBytes_eq (p : IPv4) : p.headerBytes = p.headerOf.bytes := by
  unfold headerBytes
  rw [bytes_eq, List.take_left' p.length_headerOf]

theorem bytes_sent (p : IPv4) : p.sent.bytes = p.headerOf.sealed.bytes ++ p.body := by
  have hbytes := p.sent.bytes_eq
  have hseal : p.sent.headerOf = p.headerOf.rewritten p.totalLength p.sent.checksum := rfl
  have hchecksum : p.sent.checksum = checksumOf p.checksum 0 p.headerOf.bytes :=
    congrArg (checksumOf p.checksum 0) p.headerBytes_eq
  rwa [hseal, hchecksum] at hbytes

namespace Payload

/-- Writing the payload resets the checksum. -/
def isDhcp : Payload → Bool
  | udp packet => packet.isDhcp
  | _ => false

/-- The payload has the class of the protocol. -/
def Of (protocol : UInt8) : Payload → Prop
  | data _ => True
  | icmp _ => protocol = protocolIcmp
  | tcp _ => protocol = protocolTcp
  | udp _ => protocol = protocolUdp

theorem parent_eq {p : IPv4} {payload : Payload} (h : payload.Of p.protocol) :
    payload.parent p = if payload.isDhcp then p.resetChecksum else p := by
  cases payload with
  | data packet => rfl
  | icmp packet => exact congrArg p.setProtocol h.symm
  | tcp packet => exact congrArg p.setProtocol h.symm
  | udp packet =>
    show (if packet.isDhcp then p.resetChecksum else p).setProtocol protocolUdp =
      if packet.isDhcp then p.resetChecksum else p
    rw [← show p.protocol = protocolUdp from h]
    split_ifs <;> rfl

theorem of_deserialize {protocol : UInt8} {data : List UInt8} {offset length : ℕ} {payload : Payload}
    (h : deserializePayload protocol data offset length = .ok payload) : payload.Of protocol := by
  unfold deserializePayload at h
  split_ifs at h with hicmp htcp hudp
  · cases hdecode : ICMP.deserialize data offset length with
    | error e => exact nomatch (congrArg (Payload.icmp <$> ·) hdecode).symm.trans h
    | ok packet =>
      cases (congrArg (Payload.icmp <$> ·) hdecode).symm.trans h
      exact hicmp
  · cases hdecode : TCP.deserialize data offset length with
    | error e => exact nomatch (congrArg (Payload.tcp <$> ·) hdecode).symm.trans h
    | ok packet =>
      cases (congrArg (Payload.tcp <$> ·) hdecode).symm.trans h
      exact htcp
  · cases hdecode : UDP.deserialize data offset length with
    | error e => exact nomatch (congrArg (Payload.udp <$> ·) hdecode).symm.trans h
    | ok packet =>
      cases (congrArg (Payload.udp <$> ·) hdecode).symm.trans h
      exact hudp
  · cases hdecode : Data.deserialize data offset length with
    | error e => exact nomatch (congrArg (Payload.data <$> ·) hdecode).symm.trans h
    | ok packet =>
      cases (congrArg (Payload.data <$> ·) hdecode).symm.trans h
      trivial

end Payload

namespace Header

variable {h : Header} {payload : List UInt8} {isTruncated : Bool} {x : Payload}

theorem options_decoded (hwf : h.WellFormed payload) :
    (h.decoded isTruncated x).options.getD [] = h.options := by
  have hsplit := hwf.split
  unfold Split at hsplit
  unfold decoded
  dsimp only
  split_ifs at hsplit ⊢
  · rfl
  · exact (List.eq_nil_of_length_eq_zero hsplit).symm

theorem headerOf_decoded (hwf : h.WellFormed payload) : (h.decoded isTruncated x).headerOf = h := by
  have hversion := h.version_eq
  have hsscratch := h.sscratch_eq
  have hoptions : (h.decoded isTruncated x).options.getD [] = h.options := options_decoded hwf
  obtain ⟨version, diffServ, totalLength, identification, sscratch, ttl, protocol, checksum,
    sourceAddress, destinationAddress, options⟩ := h
  unfold headerOf
  rw [hoptions]
  congr 1

/-- The header length is the one that is computed. -/
theorem headerOf_setLengths {p : IPv4} (n : ℕ) (h : UInt8.ofNat (5 + p.optionsSize / 4) = p.headerLength) :
    (p.setLengths n).headerOf =
      p.headerOf.rewritten (.ofInt (p.headerLength.toInt8.toInt * 4 + n)) p.checksum := by
  unfold optionsSize at h
  unfold setLengths headerOf rewritten
  rw [h]

/-- The header of the packet that is decoded and prepared to be written. -/
theorem headerOf_prepared (hwf : h.WellFormed payload) (hx : x.Of h.protocol) {n : ℕ}
    (hn : (x.sent (h.decoded isTruncated x)).bytes.length = n) :
    (h.decoded isTruncated x).prepared.headerOf =
      h.rewritten (.ofNat (h.bytes.length + n)) (if x.isDhcp then 0 else h.checksum) := by
  have hlt := h.version.toNat_lt
  have hheader := h.toNat_headerLength
  have hfive := hwf.five
  have hoptions := hwf.options
  have htotal : UInt16.ofInt (h.headerLength.toInt8.toInt * 4 + n) = .ofNat (h.bytes.length + n) := by
    have hlength := h.length_bytes
    rw [← UInt16.toNat_inj, UInt16.ofInt, UInt16.toNat_ofNat', UInt16.toNat_ofNat', toInt_byte,
      if_pos (by omega)]
    omega
  obtain ⟨p, hp⟩ : ∃ p, p = (h.decoded isTruncated x).withPayload := ⟨_, rfl⟩
  have hreset : p = { x.parent (h.decoded isTruncated x) with
      payload := some (x.sent (h.decoded isTruncated x)) } := hp
  rw [Payload.parent_eq hx] at hreset
  have hpayload : (h.decoded isTruncated x).payload = some x := rfl
  have hbody : p.body.length = n := by rw [hp, body_withPayload hpayload, hn]
  have hlength : p.headerLength = h.headerLength := by
    rw [hreset]
    split_ifs <;> rfl
  have hsize : UInt8.ofNat (5 + p.optionsSize / 4) = p.headerLength := by
    rw [hlength, hp, optionsSize_withPayload, optionsSize, options_decoded hwf, ← UInt8.toNat_inj,
      UInt8.toNat_ofNat']
    omega
  show ((h.decoded isTruncated x).withPayload.setLengths _).headerOf = _
  rw [← hp, headerOf_setLengths _ hsize, hbody, hlength, htotal, hreset]
  split_ifs
  · show (h.decoded isTruncated x).headerOf.rewritten _ 0 = _
    rw [headerOf_decoded hwf]
  · show (h.decoded isTruncated x).headerOf.rewritten _ h.checksum = _
    rw [headerOf_decoded hwf]

theorem bytes_sent_prepared (hwf : h.WellFormed payload) (hx : x.Of h.protocol) {n : ℕ}
    (hn : (x.sent (h.decoded isTruncated x)).bytes.length = n) :
    (h.decoded isTruncated x).prepared.sent.bytes =
      (h.rewritten (.ofNat (h.bytes.length + n)) (if x.isDhcp then 0 else h.checksum)).sealed.bytes ++
        (x.sent (h.decoded isTruncated x)).bytes := by
  have hpayload : (h.decoded isTruncated x).payload = some x := rfl
  have hbody : (h.decoded isTruncated x).prepared.body = (x.sent (h.decoded isTruncated x)).bytes :=
    body_withPayload hpayload
  rw [bytes_sent, headerOf_prepared hwf hx hn, hbody]

/-! ### Its checksum -/

/-- A header around its checksum. -/
def layout (h : Header) : Layout where
  front := [h.version, h.diffServ] ++ bytesOf 2 h.totalLength.toNat ++ bytesOf 2 h.identification.toNat ++
    bytesOf 2 h.sscratch.toNat ++ [h.ttl, h.protocol]
  back := bytesOf 4 h.sourceAddress.toNat ++ bytesOf 4 h.destinationAddress.toNat ++ h.options

theorem layout_bytes (h : Header) (checksum : UInt16) :
    h.layout.bytes checksum = (h.rewritten h.totalLength checksum).bytes := by
  unfold Layout.bytes layout bytes rewritten
  simp

theorem length_bytes_lt (hwf : h.WellFormed payload) : h.bytes.length ≤ 60 := by
  have hlt := h.version.toNat_lt
  have hheader := h.toNat_headerLength
  have hoptions := hwf.options
  rw [length_bytes]
  omega

/-- A header that verifies still verifies when it is written, if its checksum is not reset. -/
theorem sealed_of_verifies (hwf : h.WellFormed payload) : h.sealed = h := by
  have hle := wordSum_le h.bytes
  have hlength := length_bytes_lt hwf
  have hcarry := carry_of_fold hwf.checksum (by omega)
  have hstays : checksumOf h.checksum 0 h.bytes = h.checksum := by
    have hnil : (0 : UInt32).toNat = wordSum [] := rfl
    refine (checksumOf_eq_iff rfl hnil ?_).2 fun _ => ?_
    · rw [wordSum_nil]
      omega
    · rw [List.nil_append, hcarry]
  unfold sealed
  rw [hstays]
  rfl

theorem fold_sealed_reset_iff (hwf : h.WellFormed payload) :
    fold (wordSum (h.rewritten h.totalLength 0).sealed.bytes) = 0xffff ↔
      carry (wordSum (h.rewritten h.totalLength 0).bytes) < 65536 := by
  have hlength := length_bytes_lt hwf
  have hle : wordSum (h.layout.bytes 0) < 1073741824 := by
    refine wordSum_lt ?_
    rw [layout_bytes, length_bytes]
    rw [length_bytes] at hlength
    exact lt_of_le_of_lt hlength (by decide)
  have hiff := h.layout.fold_iff_all 0 (n := 0) (by simp [layout, length_bytesOf]) rfl (by omega)
  rw [Nat.zero_add, Nat.zero_add, layout_bytes, layout_bytes] at hiff
  exact hiff

theorem fold_sealed_iff (hwf : h.WellFormed payload) (isDhcp : Bool) :
    fold (wordSum (h.rewritten h.totalLength (if isDhcp then 0 else h.checksum)).sealed.bytes) = 0xffff ↔
      (isDhcp → carry (wordSum (h.rewritten h.totalLength 0).bytes) < 65536) := by
  cases isDhcp with
  | false =>
    have hsame : h.rewritten h.totalLength h.checksum = h := rfl
    rw [if_neg Bool.false_ne_true, hsame, sealed_of_verifies hwf]
    exact ⟨fun _ => nofun, fun _ => hwf.checksum⟩
  | true =>
    rw [if_pos rfl, fold_sealed_reset_iff hwf]
    exact ⟨fun h _ => h, fun h => h rfl⟩

/-! ### Its payload -/

/-- The payload comes back as it is, in the format of the protocol. -/
def PayloadKept (h : Header) (payload padding : List UInt8) : Prop :=
  if h.protocol = protocolIcmp then ICMP.Kept payload padding
  else if h.protocol = protocolTcp then TCP.Kept (h.pseudoHeaderBytes payload.length) payload padding
  else if h.protocol = protocolUdp then UDP.Kept (h.pseudoHeaderBytes payload.length) payload padding
  else padding = []

/-- The payload is a UDP segment from or to a port of DHCP. -/
def IsDhcp (h : Header) (payload : List UInt8) : Prop :=
  h.protocol = protocolUdp ∧ UDP.isDhcpPort payload = true

variable {front padding : List UInt8}

/-- What is written of a payload does not depend on the payload of the packet that it is in. -/
theorem sent_decoded (x y : Payload) :
    (x.sent (h.decoded isTruncated x)).bytes = (x.sent (h.decoded isTruncated y)).bytes := by
  cases x with
  | data packet => rfl
  | icmp packet => rfl
  | tcp packet => rfl
  | udp packet =>
    show (packet.prepared.sent (packet.preparedParent _)).bytes =
      (packet.prepared.sent (packet.preparedParent _)).bytes
    unfold UDP.preparedParent
    split_ifs <;> rfl

theorem pseudoHeaderBytes_decoded (isTruncated : Bool) (x : Payload) {protocol : UInt8}
    (hprotocol : h.protocol = protocol) :
    ((h.decoded isTruncated x).setProtocol protocol).pseudoHeaderBytes = h.pseudoHeaderBytes := by
  rw [← hprotocol]
  rfl

theorem payloadKept_iff (hlt : payload.length < 32768) :
    (∃ x, deserializePayload h.protocol (front ++ (payload ++ padding)) front.length
        (payload ++ padding).length = .ok x ∧ x.Fits ∧
        (x.sent (h.decoded isTruncated x)).bytes = payload) ↔ h.PayloadKept payload padding := by
  have hsame : ∀ x, (Payload.sent (h.decoded isTruncated x) x).bytes =
      (Payload.sent (h.decoded isTruncated (.data ⟨[]⟩)) x).bytes := fun x => sent_decoded x _
  simp only [hsame]
  unfold PayloadKept deserializePayload
  split_ifs with hicmp htcp hudp
  · rw [← ICMP.kept_iff front hlt]
    constructor
    · rintro ⟨x, hx, -, hsent⟩
      cases hdecode : ICMP.deserialize (front ++ (payload ++ padding)) front.length
          (payload ++ padding).length with
      | error e => exact nomatch (congrArg (Payload.icmp <$> ·) hdecode).symm.trans hx
      | ok p =>
        cases (congrArg (Payload.icmp <$> ·) hdecode).symm.trans hx
        exact ⟨p, rfl, hsent⟩
    · rintro ⟨p, hp, hsent⟩
      exact ⟨.icmp p, congrArg (Payload.icmp <$> ·) hp, trivial, hsent⟩
  · rw [← pseudoHeaderBytes_decoded isTruncated (.data ⟨[]⟩) htcp, ← TCP.kept_iff front hlt]
    constructor
    · rintro ⟨x, hx, hfits, hsent⟩
      cases hdecode : TCP.deserialize (front ++ (payload ++ padding)) front.length
          (payload ++ padding).length with
      | error e => exact nomatch (congrArg (Payload.tcp <$> ·) hdecode).symm.trans hx
      | ok p =>
        cases (congrArg (Payload.tcp <$> ·) hdecode).symm.trans hx
        exact ⟨p, rfl, hfits, hsent⟩
    · rintro ⟨p, hp, hfits, hsent⟩
      exact ⟨.tcp p, congrArg (Payload.tcp <$> ·) hp, hfits, hsent⟩
  · rw [← pseudoHeaderBytes_decoded isTruncated (.data ⟨[]⟩) hudp, ← UDP.kept_iff front hlt]
    constructor
    · rintro ⟨x, hx, hfits, hsent⟩
      cases hdecode : UDP.deserialize (front ++ (payload ++ padding)) front.length
          (payload ++ padding).length with
      | error e => exact nomatch (congrArg (Payload.udp <$> ·) hdecode).symm.trans hx
      | ok p =>
        cases (congrArg (Payload.udp <$> ·) hdecode).symm.trans hx
        exact ⟨p, rfl, hfits, hsent⟩
    · rintro ⟨p, hp, hfits, hsent⟩
      exact ⟨.udp p, congrArg (Payload.udp <$> ·) hp, hfits, hsent⟩
  · rw [Data.deserialize_eq (payload ++ padding) rfl]
    constructor
    · rintro ⟨x, hx, -, hsent⟩
      cases hx
      exact List.append_right_eq_self.1 hsent
    · rintro rfl
      exact ⟨_, rfl, trivial, List.append_nil payload⟩

/-- A payload is decoded as DHCP by its ports. -/
theorem isDhcp_iff {x : Payload} (hx : deserializePayload h.protocol (front ++ (payload ++ padding))
      front.length (payload ++ padding).length = .ok x)
    (hsent : (x.sent (h.decoded isTruncated x)).bytes = payload) : x.isDhcp = true ↔ h.IsDhcp payload := by
  have hof := Payload.of_deserialize hx
  unfold IsDhcp
  by_cases hudp : h.protocol = protocolUdp
  · rw [hudp] at hx
    cases hdecode : UDP.deserialize (front ++ (payload ++ padding)) front.length
        (payload ++ padding).length with
    | error e => exact nomatch (congrArg (Payload.udp <$> ·) hdecode).symm.trans hx
    | ok p =>
      cases (congrArg (Payload.udp <$> ·) hdecode).symm.trans hx
      have hlength : 8 ≤ payload.length := by
        have hlength := p.prepared.sent (p.preparedParent (some (h.decoded isTruncated (.udp p))))
          |>.length_bytes
        have hbytes := congrArg List.length hsent
        have hsame := hlength.symm.trans hbytes
        omega
      rw [← UDP.isDhcp_eq hdecode hlength]
      exact ⟨fun h => ⟨hudp, h⟩, And.right⟩
  · cases x with
    | udp p => exact absurd hof hudp
    | _ => exact ⟨nofun, fun h => absurd h.1 hudp⟩

end Header

end IPv4

/-! ## Frames -/

/-- A well-formed frame with an IPv4 packet, with a tag or without one. -/
structure IPv4Frame where
  destination : MACAddress
  source : MACAddress
  tci : Option UInt16
  header : IPv4.Header
  payload : List UInt8
  padding : List UInt8
  wellFormed : header.WellFormed payload

namespace IPv4Frame

/-- The header of the frame and of the packet. -/
def front (f : IPv4Frame) : List UInt8 :=
  f.destination.address ++ (f.source.address ++
    (Ethernet.tagBytes f.tci Ethernet.typeIPv4 ++ f.header.bytes))

def bytes (f : IPv4Frame) : List UInt8 := f.front ++ (f.payload ++ f.padding)

/-- A frame with the same fields, the same total length, a checksum that verifies and the same payload. -/
structure Same (f g : IPv4Frame) : Prop where
  destination : g.destination = f.destination
  source : g.source = f.source
  tci : g.tci = f.tci
  header : g.header = f.header.rewritten f.header.totalLength g.header.checksum
  payload : g.payload = f.payload

/-- The frame is decoded, and a frame with the same fields is written. -/
def RoundTrips (f : IPv4Frame) : Prop :=
  ∃ eth data q, Ethernet.deserialize f.bytes 0 f.bytes.length = .ok (some eth) ∧
    eth.serialize = .ok (data, q) ∧ ∃ g : IPv4Frame, g.bytes = data ∧ f.Same g

/-- No control bit is set in the tag, the length is a positive short, the payload is kept, and the checksum
that is computed anew for DHCP verifies. -/
structure Kept (f : IPv4Frame) : Prop where
  tag : ∀ tci, f.tci = some tci → tci.toNat / 4096 % 2 = 0
  lt : f.header.totalLength.toNat < 32768
  payload : f.header.PayloadKept f.payload f.padding
  dhcp : f.header.IsDhcp f.payload →
    carry (wordSum (f.header.rewritten f.header.totalLength 0).bytes) < 65536

/-! ### What is decoded -/

variable {f : IPv4Frame}

/-- The total length is not the number of bytes. -/
def isTruncated (f : IPv4Frame) : Bool :=
  f.header.totalLength.toInt16.toInt ≠ (f.header.bytes ++ (f.payload ++ f.padding)).length

/-- The frame that is decoded, with the payload of its packet. -/
def decoded (f : IPv4Frame) (x : IPv4.Payload) : Ethernet where
  destinationMACAddress := f.destination
  sourceMACAddress := f.source
  priorityCode := (Ethernet.Tag.ofTci f.tci Ethernet.typeIPv4).priorityCode
  vlanID := (Ethernet.Tag.ofTci f.tci Ethernet.typeIPv4).vlanID
  etherType := Ethernet.typeIPv4
  payload := some (.ipv4 (f.header.decoded f.isTruncated x))

theorem deserialize_eq (f : IPv4Frame) : Ethernet.deserialize f.bytes 0 f.bytes.length =
    (fun x => some (f.decoded x)) <$>
      IPv4.deserializePayload f.header.protocol f.bytes f.front.length (f.payload ++ f.padding).length := by
  have hbytes : f.bytes = f.destination.address ++ (f.source.address ++
      (Ethernet.tagBytes f.tci Ethernet.typeIPv4 ++ (f.header.bytes ++ (f.payload ++ f.padding)))) := by
    simp [bytes, front]
  have hdata : f.bytes = (f.destination.address ++ (f.source.address ++
      Ethernet.tagBytes f.tci Ethernet.typeIPv4)) ++ (f.header.bytes ++ (f.payload ++ f.padding)) := by
    simp [bytes, front]
  have hdestination := f.destination.length_eq
  have hsource := f.source.length_eq
  have hfront : (f.destination.address ++ (f.source.address ++
      Ethernet.tagBytes f.tci Ethernet.typeIPv4)).length =
        0 + 12 + (Ethernet.tagBytes f.tci Ethernet.typeIPv4).length := by
    rw [List.length_append, List.length_append]
    omega
  have hfront' : f.front.length = (f.destination.address ++ (f.source.address ++
      Ethernet.tagBytes f.tci Ethernet.typeIPv4)).length + f.header.bytes.length := by
    simp [front, Nat.add_assoc]
  have heth : Ethernet.deserialize f.bytes ([] : List UInt8).length f.bytes.length = _ :=
    Ethernet.deserialize_eq (fun _ => by decide) hbytes rfl
  have hip := IPv4.Header.deserialize_eq f.wellFormed.split rfl hdata
  have hclass : ∀ offset length, Ethernet.deserializePayload Ethernet.typeIPv4 f.bytes offset length =
      .ipv4 <$> IPv4.deserialize f.bytes offset length := fun _ _ => rfl
  refine heth.trans ?_
  rw [List.length_nil, hclass, ← hfront, hip, ← hfront']
  generalize IPv4.deserializePayload f.header.protocol f.bytes _ _ = r
  cases r <;> rfl

/-! ### What is written -/

/-- The control bit is dropped. -/
def dropControl (tci : UInt16) : UInt16 :=
  (tci >>> 13).toUInt8.toUInt16 <<< 13 ||| tci &&& 0xfff &&& 0x0fff

theorem toNat_dropControl (tci : UInt16) :
    (dropControl tci).toNat = tci.toNat / 8192 * 8192 + tci.toNat % 4096 := by
  have hlt := tci.toNat_lt
  have hshift : (tci >>> 13).toUInt8.toNat = tci.toNat / 8192 := by
    rw [UInt16.toNat_toUInt8, UInt16.toNat_shiftRight]
    show (tci.toNat >>> 13) % 256 = _
    rw [Nat.shiftRight_eq_div_pow]
    omega
  have hhigh : ((tci >>> 13).toUInt8.toUInt16 <<< 13).toNat = (tci.toNat / 8192) <<< 13 := by
    rw [UInt16.toNat_shiftLeft, UInt8.toNat_toUInt16, hshift]
    show (tci.toNat / 8192) <<< 13 % 65536 = _
    rw [Nat.shiftLeft_eq]
    omega
  have hlow : (tci &&& 0xfff &&& 0x0fff).toNat = tci.toNat % 4096 := by
    rw [UInt16.toNat_and, UInt16.toNat_and]
    show (tci.toNat &&& 2 ^ 12 - 1) &&& 2 ^ 12 - 1 = _
    rw [Nat.and_two_pow_sub_one_eq_mod, Nat.and_two_pow_sub_one_eq_mod, Nat.mod_mod]
  unfold dropControl
  rw [UInt16.toNat_or, hhigh, hlow, ← Nat.shiftLeft_add_eq_or_of_lt (by omega), Nat.shiftLeft_eq]

theorem dropControl_eq_iff {tci : UInt16} : dropControl tci = tci ↔ tci.toNat / 4096 % 2 = 0 := by
  rw [← UInt16.toNat_inj, toNat_dropControl]
  omega

theorem tag_none (htci : f.tci = none) {x : IPv4.Payload} : (f.decoded x).tag = [] := by
  have hvlan : (f.decoded x).vlanID = Ethernet.vlanUntagged := by
    unfold decoded
    rw [htci]
    rfl
  unfold Ethernet.tag
  rw [if_pos hvlan]

theorem tag_some {tci : UInt16} (htci : f.tci = some tci) {x : IPv4.Payload} : (f.decoded x).tag =
    bytesOf 2 Ethernet.typeVlan.toNat ++ bytesOf 2 (dropControl tci).toNat := by
  have hvlan : (f.decoded x).vlanID = tci &&& 0xfff := by
    unfold decoded
    rw [htci]
    rfl
  have hpriority : (f.decoded x).priorityCode = (tci >>> 13).toUInt8 := by
    unfold decoded
    rw [htci]
    rfl
  have hne : tci &&& 0xfff ≠ Ethernet.vlanUntagged := by
    intro heq
    have hbits := congrArg UInt16.toNat heq
    rw [UInt16.toNat_and] at hbits
    have hle : tci.toNat &&& 0xfff ≤ 0xfff := Nat.and_le_right
    exact absurd (hbits.symm.le.trans hle) (by decide)
  unfold Ethernet.tag
  rw [hvlan, if_neg hne, hpriority]
  rfl

theorem headerBytes_decoded {x : IPv4.Payload} : (f.decoded x).headerBytes = f.destination.address ++
    (f.source.address ++ Ethernet.tagBytes (f.tci.map dropControl) Ethernet.typeIPv4) := by
  unfold Ethernet.headerBytes
  cases htci : f.tci with
  | none =>
    rw [tag_none htci]
    simp [decoded, Ethernet.tagBytes]
  | some tci =>
    rw [tag_some htci]
    simp [decoded, Ethernet.tagBytes]

theorem serialize_eq {x : IPv4.Payload} (h : (f.header.decoded f.isTruncated x).Fits) :
    ∃ q, (f.decoded x).serialize = .ok ((f.decoded x).headerBytes ++
      (f.header.decoded f.isTruncated x).prepared.sent.bytes, q) := by
  have hpayload : (f.decoded x).serializePayload =
      .ok (some (f.header.decoded f.isTruncated x).prepared.sent.bytes,
        { f.decoded x with payload := some (.ipv4 (f.header.decoded f.isTruncated x).prepared.sent) }) := by
    have hip := congrArg (fun r : Except Stop (List UInt8 × IPv4) => r >>= fun s =>
      Except.ok (some s.1, { f.decoded x with payload := some (.ipv4 s.2) })) (IPv4.serialize_eq h)
    exact hip
  exact ⟨_, Ethernet.serialize_eq hpayload⟩

theorem serialize_error {x : IPv4.Payload} (h : ¬(f.header.decoded f.isTruncated x).Fits) :
    (f.decoded x).serialize = .error .exception := by
  have hpayload : (f.decoded x).serializePayload = .error .exception := by
    have hip := congrArg (fun r : Except Stop (List UInt8 × IPv4) => r >>= fun s =>
      Except.ok (some s.1, { f.decoded x with payload := some (.ipv4 s.2) })) (IPv4.serialize_error h)
    exact hip
  unfold Ethernet.serialize
  rw [hpayload]
  rfl

theorem fits_decoded_iff {x : IPv4.Payload} : (f.header.decoded f.isTruncated x).Fits ↔ x.Fits ∧
    f.header.bytes.length + (x.sent (f.header.decoded f.isTruncated x)).bytes.length < 32768 := by
  have hlength := IPv4.Header.length_bytes_lt f.wellFormed
  have hoptions := f.wellFormed.options
  have hsize : (f.header.decoded f.isTruncated x).optionsSize = f.header.options.length :=
    congrArg List.length (IPv4.Header.options_decoded f.wellFormed)
  have hsome : (f.header.decoded f.isTruncated x).payload = some x := rfl
  have hbody := congrArg List.length (IPv4.body_withPayload hsome)
  rw [IPv4.Header.length_bytes] at hlength ⊢
  constructor
  · rintro ⟨hpayload, -, -, hlt⟩
    rw [hsize, hbody] at hlt
    exact ⟨hpayload x rfl, hlt⟩
  · rintro ⟨hpayload, hlt⟩
    refine ⟨?_, ?_, ?_, ?_⟩
    · rintro payload ⟨⟩
      exact hpayload
    · omega
    · omega
    · omega

/-! ### The frame that is given back -/

theorem tagBytes_inj {tci tci' : Option UInt16} {etherType : UInt16} {bs bs' : List UInt8}
    (h : tci.isSome = tci'.isSome)
    (heq : Ethernet.tagBytes tci etherType ++ bs = Ethernet.tagBytes tci' etherType ++ bs') :
    tci = tci' ∧ bs = bs' := by
  cases tci <;> cases tci'
  · exact ⟨rfl, List.append_cancel_left heq⟩
  · exact nomatch h
  · exact nomatch h
  · unfold Ethernet.tagBytes at heq
    simp only [List.append_assoc, List.append_right_inj] at heq
    obtain ⟨htci, hrest⟩ := List.append_inj heq (by rw [length_bytesOf, length_bytesOf])
    rw [List.append_right_inj] at hrest
    exact ⟨congrArg some (bytesOf_short_inj.1 htci), hrest⟩

theorem bytes_rewritten_inj {h : IPv4.Header} {totalLength checksum totalLength' checksum' : UInt16}
    (heq : (h.rewritten totalLength checksum).bytes = (h.rewritten totalLength' checksum').bytes) :
    totalLength = totalLength' ∧ checksum = checksum' := by
  unfold IPv4.Header.bytes IPv4.Header.rewritten at heq
  simp only [List.append_right_inj] at heq
  obtain ⟨htotal, hrest⟩ := List.append_inj heq (by rw [length_bytesOf, length_bytesOf])
  simp only [List.append_right_inj] at hrest
  obtain ⟨hchecksum, -⟩ := List.append_inj hrest (by rw [length_bytesOf, length_bytesOf])
  exact ⟨bytesOf_short_inj.1 htotal, bytesOf_short_inj.1 hchecksum⟩

/-- What is written of the frame, with the bytes that are written of the payload. -/
def written (f : IPv4Frame) (checksum : UInt16) (bs : List UInt8) : List UInt8 :=
  f.destination.address ++ (f.source.address ++
    (Ethernet.tagBytes (f.tci.map dropControl) Ethernet.typeIPv4 ++
      ((f.header.rewritten (.ofNat (f.header.bytes.length + bs.length)) checksum).sealed.bytes ++ bs)))

/-- A frame with the same fields, with another checksum and without padding. -/
def renewed (f : IPv4Frame) (checksum : UInt16)
    (h : fold (wordSum (f.header.rewritten f.header.totalLength checksum).bytes) = 0xffff) : IPv4Frame where
  destination := f.destination
  source := f.source
  tci := f.tci
  header := f.header.rewritten f.header.totalLength checksum
  payload := f.payload
  padding := []
  wellFormed := ⟨f.wellFormed.version, f.wellFormed.five, f.wellFormed.options, f.wellFormed.totalLength, h⟩

theorem map_dropControl_eq_iff : f.tci.map dropControl = f.tci ↔
    ∀ tci, f.tci = some tci → tci.toNat / 4096 % 2 = 0 := by
  cases f.tci with
  | none => simp
  | some tci => simp [dropControl_eq_iff]

theorem givenBack_iff {checksum : UInt16} {bs : List UInt8}
    (hlt : f.header.bytes.length + bs.length < 32768) :
    (∃ g : IPv4Frame, g.bytes = f.written checksum bs ∧ f.Same g) ↔
      (∀ tci, f.tci = some tci → tci.toNat / 4096 % 2 = 0) ∧ bs = f.payload ∧
        fold (wordSum (f.header.rewritten f.header.totalLength checksum).sealed.bytes) = 0xffff := by
  have htotal : (UInt16.ofNat (f.header.bytes.length + bs.length)).toNat =
      f.header.bytes.length + bs.length := by
    rw [UInt16.toNat_ofNat']
    omega
  have hwellFormed := f.wellFormed.totalLength
  rw [← map_dropControl_eq_iff]
  constructor
  · rintro ⟨g, hbytes, hdestination, hsource, htci, hheader, hpayload⟩
    unfold bytes front written at hbytes
    rw [hdestination, hsource, htci, hpayload, hheader] at hbytes
    simp only [List.append_assoc, List.append_right_inj] at hbytes
    obtain ⟨htag, hrest⟩ := tagBytes_inj (by rw [Option.isSome_map]) hbytes
    have hsize : (f.header.rewritten f.header.totalLength g.header.checksum).bytes.length =
        (f.header.rewritten (.ofNat (f.header.bytes.length + bs.length)) checksum).sealed.bytes.length := by
      rw [IPv4.Header.length_bytes, IPv4.Header.length_bytes]
      rfl
    obtain ⟨hsame, hbs⟩ := List.append_inj hrest hsize
    have hlength : f.header.totalLength = .ofNat (f.header.bytes.length + bs.length) :=
      (bytes_rewritten_inj hsame).1
    have hpadding : g.padding = [] := by
      have hlength' := congrArg UInt16.toNat hlength
      have hbs' := congrArg List.length hbs
      rw [htotal] at hlength'
      rw [List.length_append] at hbs'
      exact List.eq_nil_of_length_eq_zero (by omega)
    rw [hpadding, List.append_nil] at hbs
    refine ⟨htag.symm, hbs.symm, ?_⟩
    have hverifies := g.wellFormed.checksum
    rw [hheader, hsame] at hverifies
    rwa [← hlength] at hverifies
  · rintro ⟨htci, rfl, hfold⟩
    have hlength : UInt16.ofNat (f.header.bytes.length + f.payload.length) = f.header.totalLength := by
      rw [← UInt16.toNat_inj, htotal, hwellFormed]
    refine ⟨f.renewed _ hfold, ?_, rfl, rfl, rfl, rfl, rfl⟩
    unfold written
    rw [htci, hlength]
    simp [bytes, front, renewed, IPv4.Header.sealed]
    rfl

/-- What is written is the frame with the bytes of its payload. -/
theorem written_eq {x : IPv4.Payload} (hx : x.Of f.header.protocol) :
    (f.decoded x).headerBytes ++ (f.header.decoded f.isTruncated x).prepared.sent.bytes =
      f.written (if x.isDhcp then 0 else f.header.checksum)
        (x.sent (f.header.decoded f.isTruncated x)).bytes := by
  rw [headerBytes_decoded, IPv4.Header.bytes_sent_prepared f.wellFormed hx rfl]
  simp [written]

/-! ### When it is -/

theorem RoundTrips.kept (h : f.RoundTrips) : f.Kept := by
  obtain ⟨eth, data, q, hdecode, hserialize, hgiven⟩ := h
  rw [deserialize_eq] at hdecode
  cases hx : IPv4.deserializePayload f.header.protocol f.bytes f.front.length
      (f.payload ++ f.padding).length with
  | error e =>
    rw [hx] at hdecode
    exact nomatch hdecode
  | ok x =>
    rw [hx] at hdecode
    cases hdecode
    by_cases hfits : (f.header.decoded f.isTruncated x).Fits
    · obtain ⟨q', hq'⟩ := serialize_eq hfits
      obtain ⟨hpayload, hlt⟩ := fits_decoded_iff.1 hfits
      have hof := IPv4.Payload.of_deserialize hx
      cases hserialize.symm.trans hq'
      rw [written_eq hof] at hgiven
      obtain ⟨htag, hsent, hfold⟩ := (givenBack_iff hlt).1 hgiven
      have hwellFormed := f.wellFormed.totalLength
      rw [hsent] at hlt
      have hlt' : f.payload.length < 32768 := by omega
      refine ⟨htag, by omega, ?_, fun hdhcp => ?_⟩
      · exact (IPv4.Header.payloadKept_iff hlt').1 ⟨x, hx, hpayload, hsent⟩
      have hisDhcp := (IPv4.Header.isDhcp_iff hx hsent).2 hdhcp
      exact (IPv4.Header.fold_sealed_iff f.wellFormed _).1 hfold hisDhcp
    · exact nomatch (serialize_error hfits).symm.trans hserialize

theorem Kept.roundTrips (h : f.Kept) : f.RoundTrips := by
  have hwellFormed := f.wellFormed.totalLength
  have hlt := h.lt
  obtain ⟨x, hx, hpayload, hsent⟩ := (IPv4.Header.payloadKept_iff (by omega)).2 h.payload
  have hfits : (f.header.decoded f.isTruncated x).Fits :=
    fits_decoded_iff.2 ⟨hpayload, by rw [hsent]; omega⟩
  obtain ⟨q, hq⟩ := serialize_eq hfits
  have hdecode : Ethernet.deserialize f.bytes 0 f.bytes.length = .ok (some (f.decoded x)) := by
    rw [deserialize_eq]
    exact congrArg _ hx
  refine ⟨_, _, q, hdecode, hq, ?_⟩
  rw [written_eq (IPv4.Payload.of_deserialize hx)]
  refine (givenBack_iff (by rw [hsent]; omega)).2 ⟨h.tag, hsent, ?_⟩
  refine (IPv4.Header.fold_sealed_iff f.wellFormed _).2 fun hdhcp => h.dhcp ?_
  exact (IPv4.Header.isDhcp_iff hx hsent).1 hdhcp

/-- When a frame is given back. -/
theorem roundTrips_iff (f : IPv4Frame) : f.RoundTrips ↔ f.Kept := ⟨RoundTrips.kept, Kept.roundTrips⟩

/-- The address of the host of a number. -/
def hostAddress (n : UInt8) : MACAddress := ⟨[0, 0, 0, 0, 0, n], rfl⟩

/-- An echo request without data, in a frame of 60 bytes. -/
def paddedEcho : IPv4Frame where
  destination := hostAddress 2
  source := hostAddress 1
  tci := none
  header := ⟨0x45, 0, 28, 1, 0, 64, IPv4.protocolIcmp, 0xf98c, 0xc0a80001, 0xc0a80002, []⟩
  payload := [8, 0, 0xf7, 0xfe, 0, 0, 0, 1]
  padding := List.replicate 18 0
  wellFormed := ⟨by decide, by decide, by decide, by decide, by
    rw [fold_eq_iff]
    decide⟩

theorem not_roundTrips : ¬∀ f : IPv4Frame, f.RoundTrips := by
  intro hall
  have hkept := (hall paddedEcho).kept.payload
  exact absurd hkept.padding (by decide)

end IPv4Frame

end Torpedo
