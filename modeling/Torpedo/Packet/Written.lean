import Torpedo.Packet.Serialize
import Torpedo.Util.OnesComplement

/-!
# What is written

What the encoders of the packets make of them: the fields one after the other around the checksum, and
whether they fit into the array. A checksum that is not set is the complement of the sum of the words,
carried once.
-/

namespace Torpedo

open Encoder OnesComplement

theorem ok_bind {α β : Type} (a : α) (f : α → Except Stop β) : (Except.ok a >>= f) = f a := rfl

/-! ## Signed numbers -/

theorem toInt_byte (n : UInt8) :
    n.toInt8.toInt = if n.toNat < 128 then (n.toNat : ℤ) else n.toNat - 256 := by
  show n.toBitVec.toInt = _
  rw [BitVec.toInt_eq_toNat_cond]
  show (if 2 * n.toNat < 2 ^ 8 then (n.toNat : ℤ) else n.toNat - 2 ^ 8) = _
  split_ifs <;> omega

theorem toInt_short (n : UInt16) :
    n.toInt16.toInt = if n.toNat < 32768 then (n.toNat : ℤ) else n.toNat - 65536 := by
  show n.toBitVec.toInt = _
  rw [BitVec.toInt_eq_toNat_cond]
  show (if 2 * n.toNat < 2 ^ 16 then (n.toNat : ℤ) else n.toNat - 2 ^ 16) = _
  split_ifs <;> omega

/-! ## The accumulation -/

theorem ofNat_shortAt (a b : UInt8) (bs : List UInt8) :
    (shortAt (a :: b :: bs) 0).toUInt32 = .ofNat (a.toNat * 256 + b.toNat) := by
  have := a.toNat_lt
  have := b.toNat_lt
  show (UInt16.ofNat ((0 * 256 + a.toNat) * 256 + b.toNat)).toUInt32 = _
  rw [← UInt32.toNat_inj, UInt16.toNat_toUInt32, UInt16.toNat_ofNat', UInt32.toNat_ofNat']
  omega

theorem reads_addShorts (n : ℕ) (accumulation : UInt32) :
    Decoder.Reads (addShorts n accumulation) (2 * n) fun bs =>
      accumulation + .ofNat (wordSum (bs.take (2 * n))) := by
  induction n generalizing accumulation with
  | zero =>
    refine (Decoder.reads_pure accumulation).congr fun bs _ => ?_
    simp
  | succ n ih =>
    have hread := Decoder.reads_getShort.bind fun s => ih (accumulation + s.toUInt32)
    rw [Nat.add_comm] at hread
    refine hread.congr fun bs hbs => ?_
    match bs, hbs with
    | a :: b :: bs, _ =>
      simp only [Nat.mul_add, Nat.mul_one, List.take_succ_cons, wordSum_cons_cons, ofNat_shortAt,
        UInt32.ofNat_add, UInt32.add_assoc, List.drop_succ_cons, List.drop_zero]

theorem reads_addLast (length : ℕ) (accumulation : UInt32) :
    Decoder.Reads (addLast length accumulation) (length % 2) fun bs =>
      accumulation + .ofNat (wordSum (bs.take (length % 2))) := by
  unfold addLast
  obtain h | h : length % 2 = 0 ∨ length % 2 = 1 := by omega
  · simp only [h, Nat.lt_irrefl, if_false]
    refine (Decoder.reads_pure accumulation).congr fun bs _ => ?_
    simp
  · simp only [h, Nat.lt_add_one, if_true]
    refine (Decoder.reads_getByte.map fun b => accumulation + b.toUInt32 <<< 8).congr fun bs hbs => ?_
    match bs, hbs with
    | a :: bs, _ =>
      have := a.toNat_lt
      have hbyte : byteAt (a :: bs) 0 = a := by
        show UInt8.ofNat (0 * 256 + a.toNat) = a
        rw [Nat.zero_mul, Nat.zero_add, UInt8.ofNat_toNat]
      have hshift : a.toUInt32 <<< 8 = .ofNat (a.toNat * 256) := by
        rw [← UInt32.toNat_inj, UInt32.toNat_shiftLeft, UInt8.toNat_toUInt32, UInt32.toNat_ofNat']
        show a.toNat <<< 8 % _ = _
        rw [Nat.shiftLeft_eq]
      show accumulation + (byteAt (a :: bs) 0).toUInt32 <<< 8 = accumulation + .ofNat (wordSum [a])
      have hsum : wordSum [a] = a.toNat * 256 := Nat.add_zero _
      rw [hbyte, hshift, hsum]

theorem reads_words (length : ℕ) (accumulation : UInt32) :
    Decoder.Reads (do addLast length (← addShorts (length / 2) accumulation)) length fun bs =>
      accumulation + .ofNat (wordSum (bs.take length)) := by
  have hreads := (reads_addShorts (length / 2) accumulation).bind fun acc => reads_addLast length acc
  rw [Nat.div_add_mod] at hreads
  refine hreads.congr fun bs hbs => ?_
  have hsplit : bs.take length =
      bs.take (2 * (length / 2)) ++ (bs.drop (2 * (length / 2))).take (length % 2) := by
    conv_lhs => rw [← Nat.div_add_mod length 2, List.take_add]
  have heven : (bs.take (2 * (length / 2))).length % 2 = 0 := by
    rw [List.length_take]
    omega
  rw [hsplit, wordSum_append _ heven, UInt32.ofNat_add, UInt32.add_assoc]

theorem toNat_halves (n : UInt32) : (halves n).toNat = carry n.toNat := by
  have hlt := n.toNat_lt
  have hhigh : (n >>> (16 : UInt32)).toNat = n.toNat / 65536 := by
    rw [UInt32.toNat_shiftRight]
    exact Nat.shiftRight_eq_div_pow _ _
  have hand : ∀ m : UInt32, (m &&& 0xffff).toNat = m.toNat % 65536 := fun m => by
    rw [UInt32.toNat_and]
    exact Nat.and_two_pow_sub_one_eq_mod _ 16
  unfold halves carry
  have hdiv : n.toNat / 65536 < 65536 := by omega
  rw [UInt32.toNat_add, hand, hand, hhigh, Nat.mod_eq_of_lt hdiv, Nat.mod_eq_of_lt]
  omega

theorem toNat_complement (n : UInt32) : (complement n).toNat = 65535 - carry n.toNat % 65536 := by
  unfold complement
  have hones : (0xffff : UInt32).toUInt16 = -1 := by decide
  rw [UInt32.toUInt16_and, UInt32.toUInt16_not, hones, UInt16.and_neg_one, UInt16.toNat_not,
    UInt32.toNat_toUInt16, toNat_halves]
  rfl
/-! ## A checksum in an array -/

/-- The checksum that is written: the one that is set, or else that of some bytes. -/
def checksumOf (checksum : UInt16) (accumulation : UInt32) (covered : List UInt8) : UInt16 :=
  if checksum = 0 then complement (accumulation + .ofNat (wordSum covered)) else checksum

namespace ByteBuffer

/-- A buffer over an array that is full. -/
def full (bs : List UInt8) : ByteBuffer where
  hb := bs
  position := bs.length
  limit := bs.length
  mark := none
  position_le := le_rfl
  limit_le := le_rfl

theorem bytes_rewind_full (bs : List UInt8) : (full bs).rewind.bytes = bs := List.take_length

theorem remaining_rewind_full (bs : List UInt8) : (full bs).rewind.remaining = bs.length := rfl

theorem written_full (bs : List UInt8) : written bs bs.length le_rfl = full bs := by
  refine ext_fields ?_ rfl rfl rfl
  show bs ++ List.replicate (bs.length - bs.length) 0 = bs
  rw [Nat.sub_self, List.replicate_zero, List.append_nil]

end ByteBuffer

/-- What is written is at least as long as the array: so it fills the array, or it does not fit. -/
theorem encode_full {α : Type} {length : ℤ} {bs : List UInt8} (hle : length ≤ bs.length)
    (k : Encoder α) :
    Encoder.encode length (do putBytes bs; k) =
      if length = bs.length then do
        let (a, bb) ← k (.full bs)
        return (bb.hb, a)
      else .error .exception := by
  rw [encode_putBytes]
  by_cases h : length = bs.length
  · subst h
    rw [if_pos rfl, dif_pos (by omega)]
    simp only [Int.toNat_natCast, ByteBuffer.written_full]
  · rw [if_neg h, dif_neg (by omega)]

theorem putChecksum_full (front back : List UInt8) (checksum : UInt16) (accumulation : UInt32)
    {covered : ℕ} (hcovered : covered ≤ (front ++ bytesOf 2 checksum.toNat ++ back).length) :
    (do
      let (c, bb) ← putChecksum checksum accumulation covered front.length
        (.full (front ++ bytesOf 2 checksum.toNat ++ back))
      return (bb.hb, c) : Except Stop (List UInt8 × UInt16)) =
      let c := checksumOf checksum accumulation
        ((front ++ bytesOf 2 checksum.toNat ++ back).take covered)
      .ok (front ++ bytesOf 2 c.toNat ++ back, c) := by
  unfold putChecksum checksumOf
  by_cases hzero : checksum = 0
  · subst hzero
    rw [if_pos rfl, if_pos rfl]
    generalize hbs : front ++ bytesOf 2 (0 : UInt16).toNat ++ back = bs at *
    have hread := reads_words covered accumulation (ByteBuffer.full bs).rewind
    rw [ByteBuffer.remaining_rewind_full, if_pos hcovered, ByteBuffer.bytes_rewind_full] at hread
    beta_reduce at hread
    generalize accumulation + UInt32.ofNat (wordSum (bs.take covered)) = sum at *
    have hlen : front.length + 2 ≤ bs.length := by
      rw [← hbs, List.length_append, List.length_append, length_bytesOf]
      omega
    have htake : bs.take front.length = front := by
      rw [← hbs, List.append_assoc, List.take_left]
    have hdrop : bs.drop (front.length + 2) = back := by
      have hfront : front.length + 2 = (front ++ bytesOf 2 (0 : UInt16).toNat).length := by
        rw [List.length_append, length_bytesOf]
      rw [← hbs, hfront, List.drop_left]
    obtain ⟨b', hput, hhb⟩ := putShortAt_ok (b := (ByteBuffer.full bs).rewind.skip covered)
      (complement sum) hlen
    have hrun : (do
        rewind
        let accumulation ← addShorts (covered / 2) accumulation
        let accumulation ← addLast covered accumulation
        putShortAt front.length (complement accumulation)
        return complement accumulation : Encoder UInt16) (ByteBuffer.full bs) =
        .ok (complement sum, b') := by
      refine (Decoder.bind_ok rfl).trans ?_
      rw [← bind_assoc]
      refine (Decoder.bind_ok hread).trans ?_
      exact Decoder.bind_ok hput
    rw [ByteBuffer.hb_skip, show (ByteBuffer.full bs).rewind.hb = bs from rfl, htake, hdrop] at hhb
    rw [hrun]
    show Except.ok (b'.hb, complement sum) = _
    rw [hhb]
  · rw [if_neg hzero, if_neg hzero]
    rfl

/-- The bytes around a checksum. -/
structure Layout where
  front : List UInt8
  back : List UInt8

namespace Layout

variable (l : Layout)

def bytes (checksum : UInt16) : List UInt8 := l.front ++ bytesOf 2 checksum.toNat ++ l.back

theorem length_bytes (checksum : UInt16) :
    (l.bytes checksum).length = l.front.length + 2 + l.back.length := by
  unfold bytes
  rw [List.length_append, List.length_append, length_bytesOf]

variable {l} {checksum : UInt16} {accumulation : UInt32} {length : ℤ} {covered : ℕ} {bs : List UInt8}

/-- The array is filled, with the checksum of the first bytes. -/
theorem encode_ok (hbs : bs = l.bytes checksum) (hlength : length = bs.length)
    (hcovered : covered ≤ bs.length) :
    Encoder.encode length (do
      putBytes bs
      putChecksum checksum accumulation covered l.front.length) =
      let c := checksumOf checksum accumulation ((l.bytes checksum).take covered)
      .ok (l.bytes c, c) := by
  subst hbs
  rw [encode_full (by omega), if_pos hlength]
  exact putChecksum_full l.front l.back checksum accumulation hcovered

/-- The checksum of all the bytes. -/
theorem encode_all (hlength : length = (l.bytes checksum).length) :
    Encoder.encode length (do
      putBytes (l.bytes checksum)
      putChecksum checksum accumulation (l.bytes checksum).length l.front.length) =
      let c := checksumOf checksum accumulation (l.bytes checksum)
      .ok (l.bytes c, c) := by
  rw [encode_ok rfl hlength le_rfl, List.take_length]

end Layout

theorem encode_short {α : Type} {length : ℤ} {bs : List UInt8} {k : Encoder α}
    (hlength : length < bs.length) : Encoder.encode length (do putBytes bs; k) = .error .exception := by
  rw [encode_full (by omega), if_neg (by omega)]

/-! ## ICMP -/

/-- The bytes of a payload that is not decoded. -/
def dataBytes (payload : Option Data) : List UInt8 := (payload.map Data.serialize).getD []

theorem getD_serialize (payload : Option Data) :
    (payload.map Data.serialize).getD [] = dataBytes payload := rfl

namespace ICMP

def layout (p : ICMP) (body : List UInt8) : Layout := ⟨[p.icmpType, p.icmpCode], body⟩

theorem put_eq (p : ICMP) (payloadData : Option (List UInt8)) :
    p.put payloadData = putBytes ((p.layout (payloadData.getD [])).bytes p.checksum) := by
  unfold put Layout.bytes layout
  simp only [putByte, putShort, putOptional_eq, putBytes_putBytes]
  simp

/-- The bytes with the checksum that is set. -/
def bytes (p : ICMP) : List UInt8 := (p.layout (dataBytes p.payload)).bytes p.checksum

/-- The packet with the checksum that is written. -/
def sent (p : ICMP) : ICMP := { p with checksum := checksumOf p.checksum 0 p.bytes }

theorem length_bytes (p : ICMP) : p.bytes.length = 4 + (dataBytes p.payload).length :=
  (p.layout _).length_bytes p.checksum

theorem serialize_eq (p : ICMP) (parent : Option IPv4) :
    p.serialize parent = .ok (p.sent.bytes, p.sent, parent.map (·.setProtocol IPv4.protocolIcmp)) := by
  unfold serialize
  dsimp only
  rw [put_eq, getD_serialize, show 2 = (p.layout (dataBytes p.payload)).front.length from rfl,
    ← p.length_bytes, bytes, Layout.encode_all rfl]
  rfl

end ICMP

/-! ## TCP -/

namespace TCP

/-- The options and their padding. -/
def optionBytes (p : TCP) : List UInt8 :=
  if 5 < p.offset then
    p.options.getD [] ++ List.replicate (p.offset * 4 - 20 - (p.options.getD []).length).toNat 0
  else []

def layout (p : TCP) (body : List UInt8) : Layout where
  front := bytesOf 2 p.sourcePort.toNat ++ bytesOf 2 p.destinationPort.toNat ++
    bytesOf 4 p.sequence.toNat ++ bytesOf 4 p.acknowledge.toNat ++
    bytesOf 2 (p.flags ||| p.dataOffset.toUInt16 <<< 12).toNat ++ bytesOf 2 p.windowSize.toNat
  back := bytesOf 2 p.urgentPointer.toNat ++ p.optionBytes ++ body

theorem length_front (p : TCP) (body : List UInt8) : (p.layout body).front.length = 16 := by
  simp [layout, length_bytesOf]

/-- The options fit into the header, which has at least five words. -/
structure Fits (p : TCP) : Prop where
  le : 5 ≤ p.offset
  options : 5 < p.offset → ∃ options, p.options = some options ∧ options.length + 20 ≤ p.offset * 4

theorem putOptions_eq {p : TCP} (h : 5 < p.offset → p.options ≠ none) :
    p.putOptions = putBytes p.optionBytes := by
  unfold putOptions optionBytes
  by_cases hlt : 5 < p.offset
  · obtain ⟨options, hoptions⟩ := Option.ne_none_iff_exists'.1 (h hlt)
    simp only [if_pos hlt, hoptions, putArray, putZeros_eq, putBytes_putBytes, Option.getD_some]
  · simp only [if_neg hlt]
    exact putBytes_nil.symm

theorem put_eq {p : TCP} (h : 5 < p.offset → p.options ≠ none) (payloadData : Option (List UInt8)) :
    p.put payloadData = putBytes ((p.layout (payloadData.getD [])).bytes p.checksum) := by
  unfold put Layout.bytes layout
  rw [putOptions_eq h]
  simp only [putShort, putInt, putOptional_eq, putBytes_putBytes]
  simp

theorem put_fails {p : TCP} (h : 5 < p.offset) (hoptions : p.options = none)
    (payloadData : Option (List UInt8)) : Fails (p.put payloadData) := by
  have hfails : Fails p.putOptions := by
    unfold putOptions
    rw [if_pos h, hoptions]
    exact fails_throw.bind _
  unfold put
  simp only [putShort, putInt, putBytes_then]
  exact (hfails.bind _).after _

def bytes (p : TCP) : List UInt8 := (p.layout (dataBytes p.payload)).bytes p.checksum

theorem length_bytes (p : TCP) :
    p.bytes.length = 20 + p.optionBytes.length + (dataBytes p.payload).length := by
  unfold bytes
  rw [Layout.length_bytes, length_front]
  simp only [layout, List.length_append, length_bytesOf]
  omega

theorem length_optionBytes {p : TCP} (h : p.Fits) : (20 + p.optionBytes.length : ℤ) = p.offset * 4 := by
  have := h.le
  unfold optionBytes
  by_cases hlt : 5 < p.offset
  · obtain ⟨options, hoptions, hle⟩ := h.options hlt
    rw [if_pos hlt, hoptions, Option.getD_some, List.length_append, List.length_replicate]
    omega
  · rw [if_neg hlt, List.length_nil]
    omega

/-- The options of a packet that does not fit are too long. -/
theorem offset_lt {p : TCP} (h : ¬p.Fits) (hoptions : 5 < p.offset → p.options ≠ none) :
    p.offset * 4 < 20 + p.optionBytes.length := by
  unfold optionBytes
  by_cases hlt : 5 < p.offset
  · obtain ⟨options, hsome⟩ := Option.ne_none_iff_exists'.1 (hoptions hlt)
    rw [if_pos hlt, hsome, Option.getD_some, List.length_append, List.length_replicate]
    by_contra hle
    exact h ⟨by omega, fun _ => ⟨options, hsome, by omega⟩⟩
  · rw [if_neg hlt, List.length_nil]
    by_contra hle
    exact h ⟨by omega, fun hlt' => absurd hlt' hlt⟩

/-- The packet with the checksum that is written. -/
def sent (p : TCP) (parent : Option IPv4) : TCP :=
  { p with checksum := checksumOf p.checksum (pseudoHeader parent p.bytes.length) p.bytes }

theorem serialize_eq (p : TCP) (parent : Option IPv4) (h : p.setDataOffset.Fits) :
    p.serialize parent =
      let parent := parent.map (·.setProtocol IPv4.protocolTcp)
      let p := p.setDataOffset.sent parent
      .ok (p.bytes, p, parent) := by
  unfold serialize
  generalize p.setDataOffset = p at *
  have hlen : p.offset * 4 + (dataBytes p.payload).length = p.bytes.length := by
    have := length_optionBytes h
    have := p.length_bytes
    omega
  have hnone : 5 < p.offset → p.options ≠ none := fun hlt => by
    obtain ⟨options, hsome, -⟩ := h.options hlt
    rw [hsome]
    exact Option.some_ne_none options
  dsimp only
  rw [put_eq hnone, getD_serialize, ← p.length_front (dataBytes p.payload), hlen, Int.toNat_natCast,
    bytes, Layout.encode_all rfl]
  rfl

theorem serialize_error (p : TCP) (parent : Option IPv4) (h : ¬p.setDataOffset.Fits) :
    p.serialize parent = .error .exception := by
  unfold serialize
  generalize p.setDataOffset = p at *
  dsimp only
  by_cases hnone : 5 < p.offset ∧ p.options = none
  · rw [((put_fails hnone.1 hnone.2 _).bind _).encode]
    rfl
  · have hoptions : 5 < p.offset → p.options ≠ none := fun hlt hsome => hnone ⟨hlt, hsome⟩
    have hlt := offset_lt h hoptions
    have hlen := p.length_bytes
    unfold bytes at hlen
    rw [put_eq hoptions, getD_serialize, encode_short (by omega)]
    rfl

end TCP

/-! ## DHCP -/

namespace DHCP

def stringBytes (string : Option String) (maxLength : ℕ) : List UInt8 :=
  match string with
  | none => List.replicate maxLength 0
  | some s =>
    let bytes := s.toList.map asciiByte
    bytes.take maxLength ++ List.replicate (maxLength - bytes.length) 0

theorem writeString_eq (string : Option String) (maxLength : ℕ) :
    writeString string maxLength = putBytes (stringBytes string maxLength) := by
  unfold writeString stringBytes
  cases string with
  | none => exact putZeros_eq maxLength
  | some s =>
    have hsub : maxLength - min (s.toList.map asciiByte).length maxLength =
        maxLength - (s.toList.map asciiByte).length := by omega
    have htake : (s.toList.map asciiByte).take (min (s.toList.map asciiByte).length maxLength) =
        (s.toList.map asciiByte).take maxLength := List.take_eq_take_iff.2 (by omega)
    dsimp only
    rw [putZeros_eq, putBytes_putBytes, hsub, htake]

def optionBytes (option : DHCPOption) : List UInt8 :=
  if isBare option.code then [option.code] else option.code :: option.length :: option.data.getD []

theorem writeOptions_eq {options : List DHCPOption}
    (h : ∀ option ∈ options, isBare option.code = false → option.data ≠ none) :
    writeOptions options = putBytes (options.flatMap optionBytes) := by
  induction options with
  | nil => exact putBytes_nil.symm
  | cons option options ih =>
    have htail := ih fun o ho => h o (List.mem_cons_of_mem _ ho)
    rw [List.flatMap_cons]
    unfold writeOptions
    by_cases hbare : isBare option.code = true
    · have hbytes : optionBytes option = [option.code] := if_pos hbare
      simp only [hbytes, hbare, if_true, htail, putByte, putBytes_putBytes]
    · have hcode : isBare option.code = false := Bool.eq_false_iff.2 hbare
      obtain ⟨data, hdata⟩ := Option.ne_none_iff_exists'.1 (h option List.mem_cons_self hcode)
      have hbytes : optionBytes option = [option.code] ++ [option.length] ++ data := by
        unfold optionBytes
        rw [if_neg hbare, hdata]
        rfl
      simp only [hbytes, hcode, hdata, htail, putByte, putArray, putBytes_putBytes, List.append_assoc,
        Bool.false_eq_true, if_false]

theorem writeOptions_fails {options : List DHCPOption} {option : DHCPOption} (hmem : option ∈ options)
    (hbare : isBare option.code = false) (hdata : option.data = none) : Fails (writeOptions options) := by
  induction options with
  | nil => exact absurd hmem List.not_mem_nil
  | cons o options ih =>
    unfold writeOptions putByte
    refine Fails.after ?_ _
    obtain rfl | htail := List.mem_cons.1 hmem
    · rw [hbare, hdata]
      exact (fails_throw.bind _).after _
    · split_ifs with ho
      · exact ih htail
      · refine Fails.after ?_ _
        cases o.data with
        | none => exact fails_throw.bind _
        | some data => exact (ih htail).after _

/-- What is put into the array. -/
def putList (p : DHCP) : List UInt8 :=
  [p.opCode, p.hardwareType, p.hardwareAddressLength, p.hops] ++ bytesOf 4 p.transactionId.toNat ++
    bytesOf 2 p.seconds.toNat ++ bytesOf 2 p.flags.toNat ++ bytesOf 4 p.clientIPAddress.toNat ++
    bytesOf 4 p.yourIPAddress.toNat ++ bytesOf 4 p.serverIPAddress.toNat ++
    bytesOf 4 p.gatewayIPAddress.toNat ++ p.clientHardwareAddress.getD [] ++
    List.replicate (16 - (p.clientHardwareAddress.getD []).length) 0 ++ stringBytes p.serverName 64 ++
    stringBytes p.bootFileName 128 ++ [0x63, 0x82, 0x53, 0x63] ++ p.options.flatMap optionBytes

/-- The arrays are there, and all fits. -/
structure Fits (p : DHCP) : Prop where
  address : p.clientHardwareAddress ≠ none
  options : ∀ option ∈ p.options, isBare option.code = false → option.data ≠ none
  le : p.putList.length ≤ 240 + max (optionsLength p.options) 60

theorem put_eq {p : DHCP} (address : p.clientHardwareAddress ≠ none)
    (options : ∀ option ∈ p.options, isBare option.code = false → option.data ≠ none) :
    p.put = putBytes p.putList := by
  obtain ⟨address, haddress⟩ := Option.ne_none_iff_exists'.1 address
  unfold put putList
  simp only [writeOptions_eq options, writeString_eq, putZeros_eq, haddress, putArray, putByte, putShort,
    putInt, putBytes_putBytes, Option.getD_some]
  simp

def bytes (p : DHCP) : List UInt8 :=
  p.putList ++ List.replicate (240 + max (optionsLength p.options) 60 - p.putList.length) 0

theorem length_bytes {p : DHCP} (h : p.Fits) :
    p.bytes.length = 240 + max (optionsLength p.options) 60 := by
  have := h.le
  unfold bytes
  rw [List.length_append, List.length_replicate]
  omega

theorem serialize_eq {p : DHCP} (h : p.Fits) : p.serialize = .ok p.bytes := by
  have henc := encode_putBytes (240 + max (optionsLength p.options) 60 : ℕ) p.putList (pure ())
  rw [Int.toNat_natCast, dif_pos ⟨h.le, by omega⟩, bind_pure_unit] at henc
  unfold serialize
  rw [put_eq h.address h.options, henc]
  rfl

theorem serialize_error {p : DHCP} (h : ¬p.Fits) : p.serialize = .error .exception := by
  unfold serialize
  by_cases haddress : p.clientHardwareAddress = none
  · have hfails : Fails p.put := by
      unfold put
      rw [haddress]
      simp only [putByte, putShort, putInt, putBytes_then]
      exact (fails_throw.bind _).after _
    rw [hfails.encode]
    rfl
  by_cases hoptions : ∀ option ∈ p.options, isBare option.code = false → option.data ≠ none
  · have hlt : ¬p.putList.length ≤ 240 + max (optionsLength p.options) 60 := fun hle =>
      h ⟨haddress, hoptions, hle⟩
    have henc := encode_putBytes (240 + max (optionsLength p.options) 60 : ℕ) p.putList (pure ())
    rw [Int.toNat_natCast, dif_neg fun hle => hlt hle.1, bind_pure_unit] at henc
    rw [put_eq haddress hoptions, henc]
    rfl
  · push Not at hoptions
    obtain ⟨option, hmem, hbare, hdata⟩ := hoptions
    have hfails : Fails p.put := by
      obtain ⟨address, haddress⟩ := Option.ne_none_iff_exists'.1 haddress
      unfold put
      rw [haddress]
      simp only [putByte, putShort, putInt, putArray, putZeros_eq, writeString_eq, putBytes_then]
      exact (writeOptions_fails hmem hbare hdata).after _
    rw [hfails.encode]
    rfl

end DHCP

/-! ## UDP -/

namespace UDP

/-- The bytes of the payload. -/
def body (p : UDP) : List UInt8 :=
  match p.payload with
  | none => []
  | some (.data payload) => payload.serialize
  | some (.dhcp payload) => payload.bytes

/-- Writing DHCP resets the checksums. -/
def isDhcp (p : UDP) : Bool :=
  match p.payload with
  | some (.dhcp _) => true
  | _ => false

def layout (p : UDP) (body : List UInt8) : Layout where
  front := bytesOf 2 p.sourcePort.toNat ++ bytesOf 2 p.destinationPort.toNat ++ bytesOf 2 p.length.toNat
  back := body

def bytes (p : UDP) : List UInt8 := (p.layout p.body).bytes p.checksum

/-- The packet as its fields are written, before the checksum is computed. -/
def prepared (p : UDP) : UDP where
  sourcePort := p.sourcePort
  destinationPort := p.destinationPort
  length := .ofNat (8 + p.body.length)
  checksum := if p.isDhcp then 0 else p.checksum
  payload := p.payload

/-- The packet that it is in, when the checksum is computed. -/
def preparedParent (p : UDP) (parent : Option IPv4) : Option IPv4 :=
  (if p.isDhcp then parent.map (·.resetChecksum) else parent).map (·.setProtocol IPv4.protocolUdp)

/-- The packet with the checksum that is written. -/
def sent (p : UDP) (parent : Option IPv4) : UDP :=
  { p with checksum := checksumOf p.checksum (pseudoHeader parent p.bytes.length) p.bytes }

/-- The length is a positive short. -/
structure Fits (p : UDP) : Prop where
  dhcp : ∀ payload, p.payload = some (.dhcp payload) → payload.Fits
  lt : 8 + p.body.length < 32768

theorem length_bytes (p : UDP) : p.bytes.length = 8 + p.body.length := by
  unfold bytes
  rw [Layout.length_bytes]
  simp only [layout, List.length_append, length_bytesOf]

@[simp] theorem body_prepared (p : UDP) : p.prepared.body = p.body := rfl

theorem put_eq (p : UDP) (payloadData : Option (List UInt8)) :
    p.put payloadData = putBytes ((p.layout (payloadData.getD [])).bytes p.checksum) := by
  unfold put Layout.bytes layout
  simp only [putShort, putOptional_eq, putBytes_putBytes]
  simp

theorem serializePayload_eq {p : UDP} (h : ∀ payload, p.payload = some (.dhcp payload) → payload.Fits)
    (parent : Option IPv4) :
    ∃ payloadData, payloadData.getD [] = p.body ∧ p.serializePayload parent =
      .ok (payloadData, { p with checksum := if p.isDhcp then 0 else p.checksum },
        if p.isDhcp then parent.map (·.resetChecksum) else parent) := by
  obtain ⟨sourcePort, destinationPort, length, checksum, payload⟩ := p
  cases payload with
  | none => exact ⟨none, rfl, rfl⟩
  | some payload =>
    cases payload with
    | data payload => exact ⟨some payload.serialize, rfl, rfl⟩
    | dhcp payload =>
      refine ⟨some payload.bytes, rfl, ?_⟩
      unfold serializePayload
      dsimp only
      rw [DHCP.serialize_eq (h payload rfl)]
      rfl

theorem serializePayload_error {p : UDP} {payload : DHCP} (hpayload : p.payload = some (.dhcp payload))
    (h : ¬payload.Fits) (parent : Option IPv4) :
    p.serializePayload parent = .error .exception := by
  unfold serializePayload
  rw [hpayload]
  dsimp only
  rw [DHCP.serialize_error h]
  rfl

theorem serialize_eq {p : UDP} (h : p.Fits) (parent : Option IPv4) :
    p.serialize parent =
      let q := p.prepared.sent (p.preparedParent parent)
      .ok (q.bytes, q, p.preparedParent parent) := by
  obtain ⟨payloadData, hbody, hpayload⟩ := serializePayload_eq h.dhcp parent
  have hlt := h.lt
  have hlen : (UInt16.ofNat (8 + p.body.length)).toNat = p.prepared.bytes.length := by
    rw [length_bytes, body_prepared, UInt16.toNat_ofNat']
    omega
  have hint : (UInt16.ofNat (8 + p.body.length)).toInt16.toInt = p.prepared.bytes.length := by
    rw [toInt_short, hlen, length_bytes, body_prepared, if_pos (by omega)]
  unfold serialize
  rw [hpayload, ok_bind]
  dsimp only
  rw [put_eq, hbody, hint, hlen]
  have henc : Encoder.encode p.prepared.bytes.length (do
      putBytes p.prepared.bytes
      putChecksum p.prepared.checksum (pseudoHeader (p.preparedParent parent) p.prepared.bytes.length)
        p.prepared.bytes.length 6) = _ := Layout.encode_all (l := p.prepared.layout p.body) rfl
  exact congrArg (fun r => r >>= _) henc

theorem serialize_error {p : UDP} (h : ¬p.Fits) (parent : Option IPv4) :
    p.serialize parent = .error .exception := by
  unfold serialize
  by_cases hdhcp : ∀ payload, p.payload = some (.dhcp payload) → payload.Fits
  · obtain ⟨payloadData, hbody, hpayload⟩ := serializePayload_eq hdhcp parent
    have hge : 32768 ≤ 8 + p.body.length := by
      by_contra hlt
      exact h ⟨hdhcp, by omega⟩
    have hlen := (p.prepared.layout p.body).length_bytes p.prepared.checksum
    have hint : (UInt16.ofNat (8 + p.body.length)).toInt16.toInt <
        ((p.prepared.layout p.body).bytes p.prepared.checksum).length := by
      have hfront : (p.prepared.layout p.body).front.length = 6 := rfl
      have hback : (p.prepared.layout p.body).back = p.body := rfl
      rw [toInt_short, UInt16.toNat_ofNat', hlen, hfront, hback]
      split_ifs <;> omega
    rw [hpayload, ok_bind]
    dsimp only
    rw [put_eq, hbody]
    exact congrArg (fun r => r >>= _) (encode_short hint)
  · push Not at hdhcp
    obtain ⟨payload, hpayload, hfits⟩ := hdhcp
    rw [serializePayload_error hpayload hfits]
    rfl

end UDP

/-! ## IPv4 -/

namespace IPv4

namespace Payload

def bytes : Payload → List UInt8
  | data packet => packet.serialize
  | icmp packet => packet.bytes
  | tcp packet => packet.bytes
  | udp packet => packet.bytes

/-- The payload can be written. -/
def Fits : Payload → Prop
  | data _ | icmp _ => True
  | tcp packet => packet.setDataOffset.Fits
  | udp packet => packet.Fits

/-- What the payload makes of the packet that it is in. -/
def parent (ipv4 : IPv4) : Payload → IPv4
  | data _ => ipv4
  | icmp _ => ipv4.setProtocol protocolIcmp
  | tcp _ => ipv4.setProtocol protocolTcp
  | udp packet => (if packet.isDhcp then ipv4.resetChecksum else ipv4).setProtocol protocolUdp

/-- The payload as it is written. -/
def sent (ipv4 : IPv4) : Payload → Payload
  | data packet => data packet
  | icmp packet => icmp packet.sent
  | tcp packet => tcp (packet.setDataOffset.sent (some (ipv4.setProtocol protocolTcp)))
  | udp packet => udp (packet.prepared.sent (packet.preparedParent (some ipv4)))

end Payload

/-- The packet when its payload has been written. -/
def withPayload (p : IPv4) : IPv4 :=
  match p.payload with
  | none => p
  | some payload => { payload.parent p with payload := some (payload.sent p) }

/-- The bytes of the payload. -/
def body (p : IPv4) : List UInt8 := (p.payload.map Payload.bytes).getD []

theorem serializePayload_eq {p : IPv4} (h : ∀ payload, p.payload = some payload → payload.Fits) :
    p.serializePayload = .ok (p.withPayload.payload.map Payload.bytes, p.withPayload) := by
  unfold serializePayload withPayload
  match hpayload : p.payload with
  | none =>
    dsimp only
    rw [hpayload]
    rfl
  | some (.data packet) =>
    have hp : { p with payload := some (Payload.data packet) } = p := by
      rw [← hpayload]
    show Except.ok (_, p) = Except.ok (_, { p with payload := some (Payload.data packet) })
    rw [hp]
    rfl
  | some (.icmp packet) =>
    dsimp only
    rw [ICMP.serialize_eq]
    rfl
  | some (.tcp packet) =>
    dsimp only
    rw [TCP.serialize_eq packet _ (h _ hpayload)]
    rfl
  | some (.udp packet) =>
    have hparent : (packet.preparedParent (some p)).getD p = (Payload.udp packet).parent p := by
      show (packet.preparedParent (some p)).getD p =
        (if packet.isDhcp then p.resetChecksum else p).setProtocol protocolUdp
      unfold UDP.preparedParent
      split_ifs <;> rfl
    dsimp only
    rw [UDP.serialize_eq (h _ hpayload), ok_bind]
    dsimp only
    rw [hparent]
    rfl

theorem serializePayload_error {p : IPv4} {payload : Payload} (hpayload : p.payload = some payload)
    (h : ¬payload.Fits) : p.serializePayload = .error .exception := by
  unfold serializePayload
  rw [hpayload]
  cases payload with
  | data packet => exact absurd trivial h
  | icmp packet => exact absurd trivial h
  | tcp packet =>
    dsimp only
    rw [TCP.serialize_error packet _ h]
    rfl
  | udp packet =>
    dsimp only
    rw [UDP.serialize_error h]
    rfl

/-- The number of bytes of the options. -/
def optionsSize (p : IPv4) : ℕ := (p.options.getD []).length

def layout (p : IPv4) (body : List UInt8) : Layout where
  front := [(p.version &&& 0xf) <<< 4 ||| p.headerLength &&& 0xf, p.diffServ] ++
    bytesOf 2 p.totalLength.toNat ++ bytesOf 2 p.identification.toNat ++
    bytesOf 2 ((p.flags &&& 0x7).toUInt16 <<< 13 ||| p.fragmentOffset &&& 0x1fff).toNat ++
    [p.ttl, p.protocol]
  back := bytesOf 4 p.sourceAddress.toNat ++ bytesOf 4 p.destinationAddress.toNat ++
    p.options.getD [] ++ body

def bytes (p : IPv4) : List UInt8 := (p.layout p.body).bytes p.checksum

theorem length_front (p : IPv4) (body : List UInt8) : (p.layout body).front.length = 10 := by
  simp [layout, length_bytesOf]

theorem length_bytes (p : IPv4) : p.bytes.length = 20 + p.optionsSize + p.body.length := by
  unfold bytes optionsSize
  rw [Layout.length_bytes, length_front]
  simp only [layout, List.length_append, length_bytesOf]
  omega

theorem put_eq (p : IPv4) (payloadData : Option (List UInt8)) :
    p.put payloadData = putBytes ((p.layout (payloadData.getD [])).bytes p.checksum) := by
  unfold put Layout.bytes layout
  simp only [putByte, putShort, putInt, putOptional_eq, putBytes_putBytes]
  simp

/-- The packet as its fields are written, before the checksum is computed. -/
def prepared (p : IPv4) : IPv4 := p.withPayload.setLengths p.withPayload.body.length

/-- The bytes of the header. -/
def headerBytes (p : IPv4) : List UInt8 := p.bytes.take (20 + p.optionsSize)

/-- The packet with the checksum that is written. -/
def sent (p : IPv4) : IPv4 := { p with checksum := checksumOf p.checksum 0 p.headerBytes }

/-- The payload can be written, the options have whole words, and the lengths are positive numbers of
their types. -/
structure Fits (p : IPv4) : Prop where
  payload : ∀ payload, p.payload = some payload → payload.Fits
  options : p.optionsSize % 4 = 0
  header : p.optionsSize < 492
  lt : 20 + p.optionsSize + p.withPayload.body.length < 32768

@[simp] theorem optionsSize_withPayload (p : IPv4) :
    p.withPayload.optionsSize = p.optionsSize := by
  unfold withPayload
  match p.payload with
  | none => rfl
  | some (.data packet) => rfl
  | some (.icmp packet) => rfl
  | some (.tcp packet) => rfl
  | some (.udp packet) =>
    show ((if packet.isDhcp then p.resetChecksum else p).setProtocol protocolUdp).optionsSize = _
    split_ifs <;> rfl

theorem length_prepared (p : IPv4) :
    p.prepared.bytes.length = 20 + p.optionsSize + p.withPayload.body.length := by
  rw [length_bytes, ← p.optionsSize_withPayload]
  rfl

theorem toInt_totalLength (p : IPv4) : p.prepared.totalLength.toInt16.toInt =
    (((UInt8.ofNat (5 + p.optionsSize / 4)).toInt8.toInt * 4 + p.withPayload.body.length + 32768)
      % 65536) - 32768 := by
  have htotal : p.prepared.totalLength =
      .ofInt ((UInt8.ofNat (5 + p.optionsSize / 4)).toInt8.toInt * 4 + p.withPayload.body.length) := by
    rw [← optionsSize_withPayload]
    rfl
  rw [htotal, toInt_short, UInt16.ofInt, UInt16.toNat_ofNat']
  split_ifs <;> omega

theorem toInt_headerLength (n : ℕ) : (UInt8.ofNat n).toInt8.toInt = (n + 128 : ℤ) % 256 - 128 := by
  rw [toInt_byte, UInt8.toNat_ofNat']
  split_ifs <;> omega

theorem serialize_eq {p : IPv4} (h : p.Fits) :
    p.serialize = .ok (p.prepared.sent.bytes, p.prepared.sent) := by
  have hoptions := h.options
  have hheader := h.header
  have hlt := h.lt
  have hint : p.prepared.totalLength.toInt16.toInt = p.prepared.bytes.length := by
    rw [toInt_totalLength, toInt_headerLength, length_prepared]
    omega
  have hcovered : (p.prepared.headerLength.toInt8.toInt * 4).toNat = 20 + p.optionsSize := by
    have hlength : p.prepared.headerLength = .ofNat (5 + p.optionsSize / 4) := by
      rw [← optionsSize_withPayload]
      rfl
    rw [hlength, toInt_headerLength]
    omega
  have hle : 20 + p.optionsSize ≤ p.prepared.bytes.length := by
    rw [length_prepared]
    omega
  unfold serialize
  rw [serializePayload_eq h.payload, ok_bind]
  dsimp only
  rw [put_eq]
  have henc : Encoder.encode p.prepared.totalLength.toInt16.toInt (do
      putBytes p.prepared.bytes
      putChecksum p.prepared.checksum 0 (p.prepared.headerLength.toInt8.toInt * 4).toNat 10) = _ :=
    Layout.encode_ok (l := p.prepared.layout p.withPayload.body) rfl hint (hcovered.le.trans hle)
  refine (congrArg (fun r => r >>= _) henc).trans ?_
  rw [hcovered, ← p.optionsSize_withPayload]
  rfl

theorem serialize_error {p : IPv4} (h : ¬p.Fits) : p.serialize = .error .exception := by
  unfold serialize
  by_cases hpayload : ∀ payload, p.payload = some payload → payload.Fits
  · have hint : p.prepared.totalLength.toInt16.toInt < p.prepared.bytes.length := by
      have hnot : ¬(p.optionsSize % 4 = 0 ∧ p.optionsSize < 492 ∧
          20 + p.optionsSize + p.withPayload.body.length < 32768) :=
        fun hfits => h ⟨hpayload, hfits.1, hfits.2.1, hfits.2.2⟩
      rw [toInt_totalLength, toInt_headerLength, length_prepared]
      omega
    rw [serializePayload_eq hpayload, ok_bind]
    dsimp only
    rw [put_eq]
    have henc : Encoder.encode p.prepared.totalLength.toInt16.toInt (do
        putBytes p.prepared.bytes
        putChecksum p.prepared.checksum 0 (p.prepared.headerLength.toInt8.toInt * 4).toNat 10) = _ :=
      encode_short hint
    exact congrArg (fun r => r >>= _) henc
  · push Not at hpayload
    obtain ⟨payload, hpayload, hfits⟩ := hpayload
    rw [serializePayload_error hpayload hfits]
    rfl

end IPv4

/-! ## Ethernet -/

namespace Ethernet

/-- The tag, if there is one. -/
def tag (p : Ethernet) : List UInt8 :=
  if p.vlanID = vlanUntagged then []
  else bytesOf 2 typeVlan.toNat ++ bytesOf 2 (p.priorityCode.toUInt16 <<< 13 ||| p.vlanID &&& 0x0fff).toNat

def headerBytes (p : Ethernet) : List UInt8 :=
  p.destinationMACAddress.address ++ p.sourceMACAddress.address ++ p.tag ++ bytesOf 2 p.etherType.toNat

theorem putTag_eq (p : Ethernet) : p.putTag = putBytes p.tag := by
  unfold putTag tag
  by_cases h : p.vlanID = vlanUntagged
  · rw [if_pos h, if_neg (not_not.2 h)]
    exact putBytes_nil.symm
  · rw [if_neg h, if_pos h]
    simp only [putShort, putBytes_putBytes]

theorem put_eq (p : Ethernet) (payloadData : Option (List UInt8)) :
    p.put payloadData = putBytes (p.headerBytes ++ payloadData.getD []) := by
  unfold put headerBytes
  simp only [putTag_eq, putShort, putOptional_eq, putBytes_putBytes]
  simp

theorem length_headerBytes (p : Ethernet) :
    p.headerBytes.length = 14 + if p.vlanID = vlanUntagged then 0 else 4 := by
  unfold headerBytes tag
  split_ifs
  · simp [MACAddress.length_eq, length_bytesOf]
  · simp [MACAddress.length_eq, length_bytesOf]

theorem serialize_eq {p q : Ethernet} {payloadData : Option (List UInt8)}
    (h : p.serializePayload = .ok (payloadData, q)) :
    p.serialize = .ok (q.headerBytes ++ payloadData.getD [], q) := by
  have hlen : (q.headerBytes ++ payloadData.getD []).length =
      14 + (if q.vlanID = vlanUntagged then 0 else 4) + (payloadData.getD []).length := by
    rw [List.length_append, length_headerBytes]
  have henc := encode_full (Int.le_refl (q.headerBytes ++ payloadData.getD []).length) (pure ())
  rw [if_pos rfl, bind_pure_unit, hlen] at henc
  unfold serialize
  rw [h, ok_bind]
  dsimp only
  rw [put_eq, henc]
  rfl

end Ethernet

end Torpedo
