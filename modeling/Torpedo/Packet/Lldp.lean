import Torpedo.Packet.Decoded
import Torpedo.Packet.Whole

/-!
# LLDP

An LLDP packet whose TLVs have values of their lengths is written, and read as it is but for the values that
are empty. So is a BSN packet with it. Whatever the bytes are, the loop that reads them ends, and reads each
byte once at most.
-/

namespace Torpedo

open Decoder Encoder

theorem encode_all_bytes (bs : List UInt8) : Encoder.encode bs.length (putBytes bs) = .ok (bs, ()) := by
  have henc := encode_full (Int.le_refl bs.length) (pure ())
  rw [if_pos rfl, bind_pure_unit] at henc
  exact henc

/-! ## TLVs -/

namespace LLDPTLV

/-- The value is there and has the length, and the type and the length fit into their bits. -/
structure Proper (tlv : LLDPTLV) : Prop where
  type : tlv.type.toNat < 128
  value : ∃ value, tlv.value = some value ∧ value.length = tlv.length.toNat
  pos : 0 < tlv.length.toNat
  lt : tlv.length.toNat < 512

/-- The type and the length fit into their bits, and the value has the length. A value that is null has
none. -/
structure Sized (tlv : LLDPTLV) : Prop where
  type : tlv.type.toNat < 128
  length_value : (tlv.value.getD []).length = tlv.length.toNat
  lt : tlv.length.toNat < 512

/-- The type and the length. -/
def scratch (tlv : LLDPTLV) : UInt16 := (0x7f &&& tlv.type).toUInt16 <<< 9 ||| 0x1ff &&& tlv.length

def bytes (tlv : LLDPTLV) : List UInt8 := bytesOf 2 tlv.scratch.toNat ++ tlv.value.getD []

/-- The TLV as it is read: nothing is read of an empty value. -/
def reread (tlv : LLDPTLV) : LLDPTLV := { tlv with value := if 0 < tlv.length then tlv.value else none }

variable {tlv : LLDPTLV}

theorem Proper.sized (h : tlv.Proper) : tlv.Sized := by
  obtain ⟨value, hvalue, hlength⟩ := h.value
  exact ⟨h.type, by rwa [hvalue], h.lt⟩

theorem Proper.reread_eq (h : tlv.Proper) : tlv.reread = tlv := by
  have hpos : 0 < tlv.length := UInt16.lt_iff_toNat_lt.2 h.pos
  unfold reread
  rw [if_pos hpos]

theorem Sized.reread_eq_iff (h : tlv.Sized) : tlv.reread = tlv ↔ tlv.value ≠ some [] := by
  have hlength := h.length_value
  obtain ⟨type, length, value⟩ := tlv
  simp only [reread, mk.injEq, true_and]
  by_cases hpos : 0 < length
  · have hnat : 0 < length.toNat := UInt16.lt_iff_toNat_lt.1 hpos
    rw [if_pos hpos]
    refine ⟨fun _ hempty => ?_, fun _ => rfl⟩
    cases hempty
    exact absurd hlength.symm hnat.ne'
  · have hzero : length.toNat = 0 := Nat.eq_zero_of_not_pos (UInt16.lt_iff_toNat_lt.not.1 hpos)
    rw [if_neg hpos]
    cases value with
    | none => exact ⟨fun _ => nofun, fun _ => rfl⟩
    | some value =>
      have hnil : value = [] := List.eq_nil_of_length_eq_zero (hlength.trans hzero)
      exact ⟨nofun, fun h => absurd (congrArg some hnil) h⟩

theorem Sized.toNat_scratch (h : tlv.Sized) :
    tlv.scratch.toNat = tlv.type.toNat * 512 + tlv.length.toNat := by
  have htype := h.type
  have hlt := h.lt
  have hhigh : ((0x7f &&& tlv.type).toUInt16 <<< 9).toNat = tlv.type.toNat <<< 9 := by
    rw [UInt16.toNat_shiftLeft, UInt8.toNat_toUInt16, UInt8.toNat_and, Nat.and_comm]
    show (tlv.type.toNat &&& 2 ^ 7 - 1) <<< 9 % 65536 = _
    rw [Nat.and_two_pow_sub_one_eq_mod, Nat.shiftLeft_eq, Nat.shiftLeft_eq]
    omega
  have hlow : (0x1ff &&& tlv.length).toNat = tlv.length.toNat := by
    rw [UInt16.toNat_and, Nat.and_comm]
    refine (Nat.and_two_pow_sub_one_eq_mod _ 9).trans ?_
    omega
  unfold scratch
  rw [UInt16.toNat_or, hhigh, hlow, ← Nat.shiftLeft_add_eq_or_of_lt (by omega), Nat.shiftLeft_eq]

theorem Sized.type_scratch (h : tlv.Sized) : (tlv.scratch >>> 9).toUInt8 = tlv.type := by
  have htype := h.type
  have hlt := h.lt
  rw [← UInt8.toNat_inj, UInt16.toNat_toUInt8, UInt16.toNat_shiftRight, h.toNat_scratch]
  show ((tlv.type.toNat * 512 + tlv.length.toNat) >>> 9) % 256 = _
  rw [Nat.shiftRight_eq_div_pow]
  omega

theorem Sized.length_scratch (h : tlv.Sized) : tlv.scratch &&& 0x1ff = tlv.length := by
  have hlt := h.lt
  rw [← UInt16.toNat_inj, UInt16.toNat_and, h.toNat_scratch]
  refine (Nat.and_two_pow_sub_one_eq_mod _ 9).trans ?_
  omega

theorem Sized.length_bytes (h : tlv.Sized) : tlv.bytes.length = 2 + tlv.length.toNat := by
  unfold bytes
  rw [List.length_append, length_bytesOf, h.length_value]

theorem Sized.tlvLength (h : tlv.Sized) : LLDP.tlvLength tlv = tlv.bytes.length := by
  have hlt := h.lt
  unfold LLDP.tlvLength
  rw [h.length_bytes, toInt_short, if_pos (by omega)]
  rfl

theorem Sized.serialize_eq (h : tlv.Sized) : tlv.serialize = .ok tlv.bytes := by
  have hlength : 2 + tlv.length.toInt16.toInt = tlv.bytes.length := h.tlvLength
  unfold serialize
  simp only [hlength, putShort, putOptional_eq, putBytes_putBytes]
  exact congrArg (fun r => r >>= _) (encode_all_bytes tlv.bytes)

theorem Sized.parses (h : tlv.Sized) : Decoder.Parses LLDPTLV.deserialize tlv.bytes (some tlv.reread) := by
  have hlength := h.length_value
  have hbytes := parses_getBytes (tlv.value.getD [])
  rw [hlength] at hbytes
  intro front ys
  unfold LLDPTLV.deserialize bytes reread
  rw [List.append_assoc, (parses_getShort _).run, h.type_scratch, h.length_scratch]
  split_ifs with hpos
  · have hnat : 0 < tlv.length.toNat := UInt16.lt_iff_toNat_lt.1 hpos
    have hsome : some (tlv.value.getD []) = tlv.value := by
      cases hvalue : tlv.value with
      | none =>
        rw [hvalue] at hlength
        exact absurd hlength.symm hnat.ne'
      | some value => rfl
    rw [remaining_run, if_neg (by rw [List.length_append]; omega), hbytes.run, List.append_assoc, hsome]
    rfl
  · have hnil : tlv.value.getD [] = [] := List.eq_nil_of_length_eq_zero
      (hlength.trans (Nat.eq_zero_of_not_pos (UInt16.lt_iff_toNat_lt.not.1 hpos)))
    rw [hnil]
    simp only [List.nil_append, List.append_nil]
    rfl

end LLDPTLV

/-! ## Packets -/

namespace LLDP

/-- The TLVs that are written are there, with their types. -/
structure Proper (p : LLDP) (chassisId portId ttl : LLDPTLV) : Prop where
  eq : p = ⟨some chassisId, some portId, some ttl, p.optionalTLVList⟩
  chassisType : chassisId.type = 1
  portType : portId.type = 2
  ttlType : ttl.type = 3
  proper : ∀ tlv ∈ chassisId :: portId :: ttl :: p.optionalTLVList, tlv.Proper
  optionalType : ∀ tlv ∈ p.optionalTLVList, 3 < tlv.type.toNat

/-- The TLVs that are written are there, with their types, and are sized. -/
structure Sized (p : LLDP) (chassisId portId ttl : LLDPTLV) : Prop where
  eq : p = ⟨some chassisId, some portId, some ttl, p.optionalTLVList⟩
  chassisType : chassisId.type = 1
  portType : portId.type = 2
  ttlType : ttl.type = 3
  sized : ∀ tlv ∈ chassisId :: portId :: ttl :: p.optionalTLVList, tlv.Sized
  optionalType : ∀ tlv ∈ p.optionalTLVList, 3 < tlv.type.toNat

variable {p : LLDP} {tlvs : List LLDPTLV} {chassisId portId ttl : LLDPTLV}

theorem Proper.sized (h : p.Proper chassisId portId ttl) : p.Sized chassisId portId ttl :=
  ⟨h.eq, h.chassisType, h.portType, h.ttlType, fun tlv hmem => (h.proper tlv hmem).sized, h.optionalType⟩

theorem lift_ok {α β : Type} (a : α) (k : α → Encoder β) :
    ((liftM (Except.ok a : Except Stop α) : Encoder α) >>= k) = k a := rfl

theorem putTLVs_eq (h : ∀ tlv ∈ tlvs, tlv.Sized) :
    putTLVs tlvs = putBytes (tlvs.flatMap LLDPTLV.bytes) := by
  induction tlvs with
  | nil => exact putBytes_nil.symm
  | cons tlv tlvs ih =>
    unfold putTLVs
    rw [(h tlv List.mem_cons_self).serialize_eq, lift_ok, ih fun o ho => h o (List.mem_cons_of_mem _ ho),
      putBytes_putBytes, List.flatMap_cons]

/-- The TLVs, and the end of the packet. -/
def bytesOfTLVs (tlvs : List LLDPTLV) : List UInt8 := tlvs.flatMap LLDPTLV.bytes ++ bytesOf 2 0

theorem sum_tlvLength (h : ∀ tlv ∈ tlvs, tlv.Sized) :
    (tlvs.map tlvLength).sum = (tlvs.flatMap LLDPTLV.bytes).length := by
  induction tlvs with
  | nil => rfl
  | cons tlv tlvs ih =>
    rw [List.map_cons, List.sum_cons, (h tlv List.mem_cons_self).tlvLength,
      ih fun o ho => h o (List.mem_cons_of_mem _ ho), List.flatMap_cons, List.length_append]
    rfl

theorem Sized.serialize_eq (h : p.Sized chassisId portId ttl) :
    p.serialize = .ok (bytesOfTLVs (chassisId :: portId :: ttl :: p.optionalTLVList)) := by
  have hlength : tlvLength chassisId + tlvLength portId + tlvLength ttl + 2 +
      (p.optionalTLVList.map tlvLength).sum =
        (bytesOfTLVs (chassisId :: portId :: ttl :: p.optionalTLVList)).length := by
    have hsum := sum_tlvLength h.sized
    simp only [List.map_cons, List.sum_cons] at hsum
    unfold bytesOfTLVs
    rw [List.length_append, length_bytesOf]
    omega
  have hput : (do
      putTLVs (chassisId :: portId :: ttl :: p.optionalTLVList)
      putShort 0) = putBytes (bytesOfTLVs (chassisId :: portId :: ttl :: p.optionalTLVList)) := by
    rw [putTLVs_eq h.sized]
    exact putBytes_putBytes _ _
  have hparts : p.serialize = Encoder.encode (tlvLength chassisId + tlvLength portId + tlvLength ttl + 2 +
      (p.optionalTLVList.map tlvLength).sum) (do
        putTLVs (chassisId :: portId :: ttl :: p.optionalTLVList)
        putShort 0) >>= fun encoded => .ok encoded.1 := by
    rw [h.eq]
    rfl
  rw [hparts, hlength, hput, encode_all_bytes]
  rfl

/-! ### Reading it -/

theorem readTLVs_end (fuel : ℕ) (p : LLDP) (front : List UInt8) :
    readTLVs (fuel + 1) p (.behind front (bytesOf 2 0)) = .ok (p, .behind (front ++ bytesOf 2 0) []) := by
  have hend : LLDPTLV.deserialize (.behind front (bytesOf 2 0 ++ [])) =
      .ok (some ⟨0, 0, none⟩, .behind (front ++ bytesOf 2 0) []) := by
    unfold LLDPTLV.deserialize
    exact (parses_getShort 0).run
  rw [List.append_nil] at hend
  unfold readTLVs
  rw [bind_ok hend]
  rfl

theorem readTLVs_tlvs {ys : List UInt8} (hys : ys ≠ []) (fuel : ℕ)
    (h : ∀ tlv ∈ tlvs, tlv.Sized ∧ tlv.type ≠ 0) : ∀ p front,
    readTLVs (fuel + tlvs.length) p (.behind front (tlvs.flatMap LLDPTLV.bytes ++ ys)) =
      readTLVs fuel ((tlvs.map LLDPTLV.reread).foldl keep p)
        (.behind (front ++ tlvs.flatMap LLDPTLV.bytes) ys) := by
  induction tlvs with
  | nil =>
    intro p front
    simp
  | cons tlv tlvs ih =>
    intro p front
    have htail := ih fun o ho => h o (List.mem_cons_of_mem _ ho)
    obtain ⟨hsized, htype⟩ := h tlv List.mem_cons_self
    have hleft : 0 < (tlvs.flatMap LLDPTLV.bytes ++ ys).length := by
      have := List.length_pos_iff.2 hys
      rw [List.length_append]
      omega
    rw [List.length_cons, ← Nat.add_assoc, List.flatMap_cons, List.append_assoc]
    conv_lhs => unfold readTLVs
    rw [hsized.parses.run]
    dsimp only
    rw [remaining_run, if_pos ⟨htype, hleft⟩, htail, List.append_assoc]
    rfl

theorem foldl_keep {tlvs : List LLDPTLV} (h : ∀ tlv ∈ tlvs, 3 < tlv.type.toNat) : ∀ p : LLDP,
    tlvs.foldl keep p = { p with optionalTLVList := p.optionalTLVList ++ tlvs } := by
  induction tlvs with
  | nil =>
    intro p
    rw [List.append_nil]
    rfl
  | cons tlv tlvs ih =>
    intro p
    have htype := h tlv List.mem_cons_self
    have hne : ∀ n : UInt8, n.toNat ≤ 3 → tlv.type ≠ n := by
      rintro n hn rfl
      omega
    have hkeep : p.keep tlv = { p with optionalTLVList := p.optionalTLVList ++ [tlv] } := by
      unfold keep
      rw [if_neg (hne 0 (by decide)), if_neg (hne 1 (by decide)), if_neg (hne 2 (by decide)),
        if_neg (hne 3 (by decide))]
    rw [List.foldl_cons, ih fun o ho => h o (List.mem_cons_of_mem _ ho), hkeep]
    simp

/-- The packet as it is read. -/
def reread (p : LLDP) : LLDP where
  chassisId := p.chassisId.map LLDPTLV.reread
  portId := p.portId.map LLDPTLV.reread
  ttl := p.ttl.map LLDPTLV.reread
  optionalTLVList := p.optionalTLVList.map LLDPTLV.reread

theorem Sized.foldl_keep (h : p.Sized chassisId portId ttl) :
    ((chassisId :: portId :: ttl :: p.optionalTLVList).map LLDPTLV.reread).foldl keep new = p.reread := by
  obtain ⟨heq, hchassis, hport, httl, -, hoptional⟩ := h
  have hthree : ((new.keep chassisId.reread).keep portId.reread).keep ttl.reread =
      ⟨some chassisId.reread, some portId.reread, some ttl.reread, []⟩ := by
    unfold keep
    rw [show chassisId.reread.type = 1 from hchassis, show portId.reread.type = 2 from hport,
      show ttl.reread.type = 3 from httl]
    rfl
  have hrest : ∀ tlv ∈ p.optionalTLVList.map LLDPTLV.reread, 3 < tlv.type.toNat :=
    List.forall_mem_map.2 hoptional
  simp only [List.map_cons, List.foldl_cons]
  rw [hthree, LLDP.foldl_keep hrest]
  conv_rhs => rw [heq]
  rfl

theorem Sized.reread_eq_iff (h : p.Sized chassisId portId ttl) :
    p.reread = p ↔ ∀ tlv ∈ chassisId :: portId :: ttl :: p.optionalTLVList, tlv.value ≠ some [] := by
  have hsame : (∀ tlv ∈ chassisId :: portId :: ttl :: p.optionalTLVList, tlv.value ≠ some []) ↔
      ∀ tlv ∈ chassisId :: portId :: ttl :: p.optionalTLVList, tlv.reread = tlv :=
    forall₂_congr fun tlv hmem => (h.sized tlv hmem).reread_eq_iff.symm
  have hlist : p.optionalTLVList.map LLDPTLV.reread = p.optionalTLVList ↔
      ∀ tlv ∈ p.optionalTLVList, tlv.reread = tlv := by
    conv_lhs => rhs; rw [← List.map_id p.optionalTLVList]
    exact List.map_inj_left
  rw [hsame, h.eq]
  simp only [reread, mk.injEq, Option.map_some, Option.some.injEq, List.forall_mem_cons, hlist]

theorem Sized.type_ne (h : p.Sized chassisId portId ttl) :
    ∀ tlv ∈ chassisId :: portId :: ttl :: p.optionalTLVList, tlv.Sized ∧ tlv.type ≠ 0 := by
  intro tlv hmem
  refine ⟨h.sized tlv hmem, ?_⟩
  simp only [List.mem_cons] at hmem
  obtain rfl | rfl | rfl | hmem := hmem
  · rw [h.chassisType]
    decide
  · rw [h.portType]
    decide
  · rw [h.ttlType]
    decide
  · intro hzero
    have := h.optionalType tlv hmem
    rw [hzero] at this
    exact absurd this (by decide)

theorem length_le_bytes (h : ∀ tlv ∈ tlvs, tlv.Sized) :
    tlvs.length ≤ (tlvs.flatMap LLDPTLV.bytes).length := by
  induction tlvs with
  | nil => exact le_rfl
  | cons tlv tlvs ih =>
    have hle := ih fun o ho => h o (List.mem_cons_of_mem _ ho)
    have hlength := (h tlv List.mem_cons_self).length_bytes
    rw [List.length_cons, List.flatMap_cons, List.length_append]
    omega

/-- What is written of a packet is read as the packet without its empty values. -/
theorem Sized.deserialize_eq (h : p.Sized chassisId portId ttl) {bs front data : List UInt8}
    (hbs : bs = bytesOfTLVs (chassisId :: portId :: ttl :: p.optionalTLVList))
    (hdata : data = front ++ bs) :
    LLDP.deserialize data front.length bs.length = .ok p.reread := by
  have hle := length_le_bytes h.sized
  obtain ⟨fuel, hfuel⟩ : ∃ fuel, bs.length + 1 =
      fuel + 1 + (chassisId :: portId :: ttl :: p.optionalTLVList).length := by
    have hlength := congrArg List.length hbs
    unfold bytesOfTLVs at hlength
    rw [List.length_append] at hlength
    exact ⟨bs.length - (chassisId :: portId :: ttl :: p.optionalTLVList).length, by omega⟩
  unfold LLDP.deserialize
  rw [hdata, decode_behind, remaining_run, hfuel, hbs]
  unfold bytesOfTLVs
  rw [readTLVs_tlvs (by decide) _ h.type_ne, h.foldl_keep, readTLVs_end]
  rfl

theorem Proper.serialize_eq (h : p.Proper chassisId portId ttl) :
    p.serialize = .ok (bytesOfTLVs (chassisId :: portId :: ttl :: p.optionalTLVList)) := h.sized.serialize_eq

theorem Proper.deserialize_eq (h : p.Proper chassisId portId ttl) {bs front data : List UInt8}
    (hbs : bs = bytesOfTLVs (chassisId :: portId :: ttl :: p.optionalTLVList))
    (hdata : data = front ++ bs) :
    LLDP.deserialize data front.length bs.length = .ok p := by
  have hsame : p.reread = p := by
    refine h.sized.reread_eq_iff.2 fun tlv hmem => ?_
    exact (h.proper tlv hmem).sized.reread_eq_iff.1 (h.proper tlv hmem).reread_eq
  rw [h.sized.deserialize_eq hbs hdata, hsame]

/-! ### The passes of the loop -/

/-- One pass of the loop: the packet behind it, and whether the loop goes on. -/
def pass (p : LLDP) : Decoder (LLDP × Bool) := do
  let tlv ← LLDPTLV.deserialize
  match tlv with
  | none => return (p, false)
  | some tlv =>
    let left ← remaining
    return (p.keep tlv, tlv.type ≠ 0 ∧ 0 < left)

/-- The passes so far, with the bytes that each of them has read, and whether the loop goes on. -/
inductive Passes (b₀ : ByteBuffer) : List (List UInt8) → Bool → LLDP → ByteBuffer → Prop
  | start : Passes b₀ [] true new b₀
  | pass {read : List (List UInt8)} {p p' : LLDP} {b b' : ByteBuffer} {more : Bool}
      (h : Passes b₀ read true p b) (hpass : pass p b = .ok ((p', more), b')) :
      Passes b₀ (read ++ [b.bytes.take (b'.position - b.position)]) more p' b'

theorem readTLVs_succ (fuel : ℕ) (p : LLDP) : readTLVs (fuel + 1) p = do
    let (p, more) ← pass p
    if more then readTLVs fuel p else return p := by
  funext b
  conv_lhs => unfold readTLVs
  unfold pass
  rw [bind_assoc]
  cases htlv : LLDPTLV.deserialize b with
  | error e => rw [bind_error htlv, bind_error htlv]
  | ok r =>
    obtain ⟨tlv, b'⟩ := r
    rw [bind_ok htlv, bind_ok htlv]
    cases tlv with
    | none => rfl
    | some tlv =>
      have hleft : remaining b' = .ok (b'.remaining, b') := rfl
      dsimp only
      rw [bind_assoc, bind_ok hleft, bind_ok hleft]
      by_cases hmore : tlv.type ≠ 0 ∧ 0 < b'.remaining
      · rw [if_pos hmore, decide_eq_true hmore]
        rfl
      · rw [if_neg hmore, decide_eq_false hmore]
        rfl

variable {b b' b₀ : ByteBuffer} {p' : LLDP} {more : Bool} {read : List (List UInt8)} {fuel : ℕ}

/-- A pass reads two bytes at least. -/
theorem pass_spec (h : pass p b = .ok ((p', more), b')) :
    ∃ n, 2 ≤ n ∧ n ≤ b.remaining ∧ b' = b.skip n := by
  unfold pass at h
  obtain ⟨tlv, b'', htlv, hrest⟩ := of_bind_ok h
  have htwo : 2 ≤ b.remaining := by
    by_contra hlt
    have hthrow : LLDPTLV.deserialize b = .error .exception := by
      unfold LLDPTLV.deserialize
      exact bind_error ((reads_getShort b).trans (if_neg hlt))
    exact nomatch hthrow.symm.trans htlv
  have hskip : ∃ n, 2 ≤ n ∧ n ≤ b.remaining ∧ b'' = b.skip n := by
    rw [LLDPTLV.deserialize_eq htwo] at htlv
    split_ifs at htlv with hfit
    · cases htlv
      exact ⟨_, Nat.le_add_right _ _, hfit, rfl⟩
    · cases htlv
      exact ⟨2, le_rfl, htwo, rfl⟩
  cases tlv with
  | none =>
    cases hrest
    exact hskip
  | some tlv =>
    cases hrest
    exact hskip

/-- The bytes that were read, in order, are those before the position. -/
theorem Passes.flatten_append (h : Passes b₀ read more p b) : read.flatten ++ b.bytes = b₀.bytes := by
  induction h with
  | start => rfl
  | @pass read p p' b b' more h hpass ih =>
    obtain ⟨n, -, hle, rfl⟩ := pass_spec hpass
    have hposition : (b.skip n).position - b.position = n := by
      have := b.position_le
      unfold ByteBuffer.remaining at hle
      show min (b.position + n) b.limit - b.position = n
      omega
    rw [hposition, ByteBuffer.bytes_skip, List.flatten_append, List.flatten_singleton, List.append_assoc,
      List.take_append_drop, ih]

theorem Passes.two_mul_length_le (h : Passes b₀ read more p b) :
    2 * read.length + b.remaining ≤ b₀.remaining := by
  induction h with
  | start => simp
  | @pass read p p' b b' more h hpass ih =>
    obtain ⟨n, htwo, hle, rfl⟩ := pass_spec hpass
    rw [List.length_append, List.length_singleton, ByteBuffer.remaining_skip]
    omega

theorem Passes.readTLVs_eq (h : Passes b₀ read more p b) : ∀ fuel,
    readTLVs (fuel + read.length) new b₀ = if more then readTLVs fuel p b else .ok (p, b) := by
  induction h with
  | start => exact fun fuel => rfl
  | @pass read p p' b b' more h hpass ih =>
    intro fuel
    have hlast := ih (fuel + 1)
    rw [if_pos rfl, readTLVs_succ, bind_ok hpass] at hlast
    rw [List.length_append, List.length_singleton, Nat.add_comm read.length, ← Nat.add_assoc, hlast]
    cases more <;> rfl

theorem passes_of_readTLVs : ∀ {fuel : ℕ} {read : List (List UInt8)} {p : LLDP} {b : ByteBuffer},
    Passes b₀ read true p b → readTLVs fuel p b = .ok (p', b') → ∃ read, Passes b₀ read false p' b' := by
  intro fuel
  induction fuel with
  | zero => exact fun _ h => nomatch h
  | succ fuel ih =>
    intro read p b hpasses h
    rw [readTLVs_succ] at h
    obtain ⟨⟨p'', more⟩, b'', hpass, hrest⟩ := of_bind_ok h
    have hnext := Passes.pass hpasses hpass
    cases more with
    | false =>
      cases hrest
      exact ⟨_, hnext⟩
    | true => exact ih hnext hrest

/-- The loop gives the packet behind its last pass. -/
theorem deserialize_ok_iff (bs : List UInt8) (p : LLDP) :
    deserialize bs 0 bs.length = .ok p ↔ ∃ read b, Passes (.behind [] bs) read false p b := by
  unfold deserialize
  rw [decode_all, remaining_run]
  constructor
  · intro h
    cases hrun : readTLVs (bs.length + 1) new (.behind [] bs) with
    | error e =>
      rw [hrun] at h
      exact nomatch h
    | ok r =>
      rw [hrun] at h
      cases h
      obtain ⟨read, hpasses⟩ := passes_of_readTLVs .start hrun
      exact ⟨read, _, hpasses⟩
  · rintro ⟨read, b, h⟩
    have hle := h.two_mul_length_le
    rw [ByteBuffer.remaining_behind] at hle
    obtain ⟨fuel, hfuel⟩ : ∃ fuel, bs.length + 1 = fuel + read.length :=
      ⟨bs.length + 1 - read.length, by omega⟩
    rw [hfuel, h.readTLVs_eq]
    rfl

/-! ### Writing and reading it -/

/-- What is read of what is written of a packet. -/
def relay (p : LLDP) : Except Stop LLDP := do
  let data ← p.serialize
  deserialize data 0 data.length

theorem Sized.relay_eq (h : p.Sized chassisId portId ttl) : p.relay = .ok p.reread := by
  have hread := h.deserialize_eq rfl (List.nil_append _).symm
  unfold relay
  rw [h.serialize_eq, ok_bind]
  exact hread

/-- A packet with its TLVs is read as it was written if no value is an empty array. Of any bytes, the loop
ends, each pass reads the bytes behind those that were read before it, and two at least. -/
theorem deserialize_serialize_and_ends :
    (∀ (p : LLDP) (chassisId portId ttl : LLDPTLV), p.Sized chassisId portId ttl →
      (p.relay = .ok p ↔
        ∀ tlv ∈ chassisId :: portId :: ttl :: p.optionalTLVList, tlv.value ≠ some [])) ∧
    ∀ bs : List UInt8,
      deserialize bs 0 bs.length ≠ .error .outOfFuel ∧
      (∀ p, deserialize bs 0 bs.length = .ok p ↔ ∃ read b, Passes (.behind [] bs) read false p b) ∧
      ∀ read more p b, Passes (.behind [] bs) read more p b →
        read.flatten ++ b.bytes = bs ∧ 2 * read.length ≤ bs.length := by
  constructor
  · intro p chassisId portId ttl h
    rw [h.relay_eq, ← h.reread_eq_iff]
    exact ⟨Except.ok.inj, congrArg Except.ok⟩
  · intro bs
    refine ⟨?_, deserialize_ok_iff bs, fun read more p b h => ⟨?_, ?_⟩⟩
    · obtain ⟨hwhole, hcut⟩ := decides bs 0 bs.length (Nat.zero_add _).le
      by_cases h : Whole (slice bs 0 bs.length)
      · obtain ⟨p, hp⟩ := hwhole h
        rw [hp]
        nofun
      · rw [hcut h]
        nofun
    · rw [h.flatten_append, ByteBuffer.bytes_behind]
    · have hle := h.two_mul_length_le
      rw [ByteBuffer.remaining_behind] at hle
      omega

/-- A packet with an optional TLV. -/
def withValue (value : Option (List UInt8)) (length : UInt16) : LLDP where
  chassisId := some ⟨1, 7, some [4, 0, 0, 0, 0, 0, 1]⟩
  portId := some ⟨2, 3, some [2, 0, 1]⟩
  ttl := some ⟨3, 2, some [0, 120]⟩
  optionalTLVList := [⟨8, length, value⟩]

theorem sized_withValue {value : Option (List UInt8)} {length : UInt16}
    (hvalue : (value.getD []).length = length.toNat) (hlt : length.toNat < 512) :
    (withValue value length).Sized ⟨1, 7, some [4, 0, 0, 0, 0, 0, 1]⟩ ⟨2, 3, some [2, 0, 1]⟩
      ⟨3, 2, some [0, 120]⟩ where
  eq := rfl
  chassisType := rfl
  portType := rfl
  ttlType := rfl
  sized := by
    simp only [withValue, List.forall_mem_cons]
    exact ⟨⟨by decide, rfl, by decide⟩, ⟨by decide, rfl, by decide⟩, ⟨by decide, rfl, by decide⟩,
      ⟨(by decide : (8 : UInt8).toNat < 128), hvalue, hlt⟩, List.forall_mem_nil _⟩
  optionalType := by
    simp only [withValue, List.forall_mem_singleton]
    decide

theorem deserialize_serialize_withValue : (withValue (some [42]) 1).relay = .ok (withValue (some [42]) 1) := by
  refine (deserialize_serialize_and_ends.1 _ _ _ _ (sized_withValue rfl (by decide))).2 ?_
  simp [withValue]

/-- A value that is an empty array is read as null. -/
theorem not_deserialize_serialize_empty : (withValue (some []) 0).relay = .ok (withValue none 0) ∧
    withValue none 0 ≠ withValue (some []) 0 :=
  ⟨(sized_withValue rfl (by decide)).relay_eq, by decide⟩

end LLDP

/-! ## BSN -/

namespace BSN

/-- The packet that carries LLDP. -/
def ofLldp (p : LLDP) : BSN := ⟨typeBddp, versionCurrent, some (.lldp p)⟩

/-- The header, and a payload. -/
def bytesOfLldp (body : List UInt8) : List UInt8 :=
  bytesOf 4 magic.toNat ++ (bytesOf 2 typeBddp.toNat ++ (bytesOf 2 versionCurrent.toNat ++ body))

variable {p : LLDP} {body : List UInt8}

theorem serialize_lldp (h : p.serialize = .ok body) (hlt : 8 + body.length < 32768) :
    (ofLldp p).serialize = .ok (bytesOfLldp body, ofLldp p) := by
  have hlength : shortLength (8 + body.length) = (bytesOfLldp body).length := by
    have hsize : (bytesOfLldp body).length = 8 + body.length := by
      unfold bytesOfLldp
      simp only [List.length_append, length_bytesOf]
      omega
    unfold shortLength
    rw [hsize, toInt_short, UInt16.toNat_ofNat', if_pos (by omega)]
    omega
  have hpayload : (ofLldp p).serializePayload = .ok (some body, ofLldp p) := by
    unfold serializePayload ofLldp
    dsimp only
    rw [h]
    rfl
  unfold serialize
  rw [hpayload, ok_bind]
  dsimp only
  rw [Option.getD_some, hlength]
  have hput : (do
      putInt magic
      putShort (ofLldp p).type
      putShort (ofLldp p).version
      putOptional (some body)) = putBytes (bytesOfLldp body) := by
    simp only [putInt, putShort, putOptional_eq, putBytes_putBytes]
    rfl
  rw [hput, encode_all_bytes]
  rfl

theorem deserialize_lldp {bs front data : List UInt8} (hbs : bs = bytesOfLldp body)
    (hdata : data = front ++ bs)
    (hp : LLDP.deserialize data (front.length + 8) body.length = .ok p) :
    BSN.deserialize data front.length bs.length = .ok (ofLldp p) := by
  have hpayload : deserializePayload typeBddp data (front.length + 8) body.length = .ok (.lldp p) :=
    congrArg (Payload.lldp <$> ·) hp
  unfold BSN.deserialize
  rw [hdata, decode_behind, ← hdata, hbs]
  unfold bytesOfLldp
  rw [(parses_getInt _).run, if_neg (not_not.2 rfl), (parses_getShort _).run, (parses_getShort _).run,
    if_neg (not_not.2 rfl), rest_run]
  simp only [List.length_append, length_bytesOf, Nat.add_assoc, hpayload]
  rfl

end BSN

end Torpedo
