import Mathlib.Data.Bool.AllAny
import Torpedo.Packet.Decoded
import Torpedo.Packet.Whole
import Mathlib.Data.List.DropRight

/-!
# DHCP messages

A DHCP message that is decoded and written again is given back if its names are trimmed characters of the
charset `ascii`, its options are not padded, and nothing but zeros is behind them. So is a message that is
written and decoded.
-/

namespace Torpedo

namespace Decoder

variable {α β : Type} {d : Decoder α} {k : α → Decoder β} {P : α → Prop} {Q : β → Prop}

/-- All that the decoder gives is so. -/
def Yields (d : Decoder α) (P : α → Prop) : Prop := ∀ b a b', d b = .ok (a, b') → P a

theorem yields_pure {a : α} (h : P a) : Yields (pure a) P := by
  rintro b _ _ ⟨⟩
  exact h

theorem yields_throw (e : Stop) : Yields (throw e) P := fun _ _ _ h => nomatch h

theorem yields_any (d : Decoder α) : Yields d fun _ => True := fun _ _ _ _ => trivial

theorem Yields.bind (hd : Yields d P) (hk : ∀ a, P a → Yields (k a) Q) : Yields (d >>= k) Q := by
  intro b c b' h
  cases hb : d b with
  | error e =>
    rw [bind_error hb] at h
    exact nomatch h
  | ok r =>
    rw [bind_ok hb] at h
    exact hk r.1 (hd b r.1 r.2 hb) r.2 c b' h

/-- Whatever is read before. -/
theorem Yields.after (hk : ∀ a, Yields (k a) Q) : Yields (d >>= k) Q := (yields_any d).bind fun a _ => hk a

theorem Yields.ite {c : Prop} [Decidable c] {d' : Decoder α} (hd : c → Yields d P)
    (hd' : ¬c → Yields d' P) : Yields (if c then d else d') P := by
  split_ifs with hc
  · exact hd hc
  · exact hd' hc

theorem Yields.mono {P' : α → Prop} (hd : Yields d P) (h : ∀ a, P a → P' a) : Yields d P' :=
  fun b a b' hb => h a (hd b a b' hb)

theorem yields_getBytes (n : ℕ) : Yields (getBytes n) fun bs => bs.length = n := by
  intro b bs b' h
  rw [reads_getBytes n b] at h
  split_ifs at h with hle
  cases h
  rw [List.length_take, b.length_bytes]
  omega

theorem Yields.decode {data : List UInt8} {offset length : ℕ} {a : α} (hd : Yields d P)
    (h : decode d data offset length = .ok a) : P a := by
  unfold Decoder.decode at h
  cases hwrap : ByteBuffer.wrap data offset length with
  | none =>
    rw [hwrap] at h
    exact nomatch h
  | some b =>
    rw [hwrap] at h
    change (d b >>= fun p => Except.ok p.1) = .ok a at h
    cases hb : d b with
    | error e =>
      rw [hb] at h
      exact nomatch h
    | ok r =>
      rw [hb] at h
      cases h
      exact hd b r.1 r.2 hb

end Decoder

open Decoder

namespace DHCP

/-! ## Names -/

def isBlank (c : Char) : Bool := c.toNat ≤ 32

theorem trim_eq (cs : List Char) : trim cs = (cs.dropWhile isBlank).rdropWhile isBlank := rfl

theorem trim_trim (cs : List Char) : trim (trim cs) = trim cs := by
  have hfront : (trim cs).dropWhile isBlank = trim cs := by
    have hprefix : trim cs <+: cs.dropWhile isBlank := List.rdropWhile_prefix _ _
    cases htrim : trim cs with
    | nil => rfl
    | cons c rest =>
      rw [htrim] at hprefix
      obtain ⟨back, hback⟩ := hprefix
      have hnot : ¬isBlank c = true := by
        intro hblank
        have hidem := List.dropWhile_idempotent isBlank cs
        rw [← hback, List.cons_append, List.dropWhile_cons_of_pos hblank] at hidem
        have hle := List.length_dropWhile_le isBlank (rest ++ back)
        rw [hidem, List.length_cons] at hle
        omega
      exact List.dropWhile_cons_of_neg hnot
  rw [trim_eq (trim cs), hfront]
  exact List.rdropWhile_idempotent isBlank _

theorem trim_append_blanks {cs blanks : List Char} (h : ∀ c ∈ blanks, isBlank c = true) :
    trim (cs ++ blanks) = trim cs := by
  have hback : ∀ xs : List Char, (xs ++ blanks).rdropWhile isBlank = xs.rdropWhile isBlank := by
    intro xs
    unfold List.rdropWhile
    rw [List.reverse_append, List.dropWhile_append_of_pos fun c hc => h c (List.mem_reverse.1 hc)]
  rw [trim_eq, trim_eq, List.dropWhile_append]
  split_ifs with hempty
  · rw [List.isEmpty_iff.1 hempty, List.dropWhile_eq_nil_iff.2 h]
  · exact hback _

/-- A name of a message: trimmed characters of the charset `ascii`, not too many. -/
structure IsName (maxLength : ℕ) (s : String) : Prop where
  le : s.toList.length ≤ maxLength
  ascii : ∀ c ∈ s.toList, c.toNat < 128
  trim : trim s.toList = s.toList

/-- What is read of what is written of a name. -/
def reread (maxLength : ℕ) (s : String) : String :=
  .ofList (trim ((stringBytes (some s) maxLength).map asciiChar))

theorem asciiChar_asciiByte {c : Char} (h : c.toNat < 128) : asciiChar (asciiByte c) = c := by
  have hbyte : (UInt8.ofNat c.toNat).toNat = c.toNat := by
    rw [UInt8.toNat_ofNat']
    omega
  have hlt : UInt8.ofNat c.toNat < 128 := by
    rw [UInt8.lt_iff_toNat_lt, hbyte]
    exact h
  unfold asciiByte asciiChar
  rw [if_pos h, if_pos hlt, hbyte, Char.ofNat_toNat]

theorem toNat_asciiByte (c : Char) : (asciiByte c).toNat < 128 := by
  unfold asciiByte
  split_ifs with h
  · rw [UInt8.toNat_ofNat']
    omega
  · decide

theorem toNat_asciiChar {b : UInt8} (h : b.toNat < 128) : (asciiChar b).toNat < 128 := by
  have hlt : b < 128 := h
  have hvalid : b.toNat.isValidChar := Or.inl (lt_trans h (by decide))
  have hchar : Char.ofNat b.toNat = Char.ofNatAux b.toNat hvalid := dif_pos hvalid
  unfold asciiChar
  rw [if_pos hlt, hchar]
  exact h

theorem length_stringBytes (s : Option String) (maxLength : ℕ) :
    (stringBytes s maxLength).length = maxLength := by
  unfold stringBytes
  cases s with
  | none => exact List.length_replicate
  | some s =>
    dsimp only
    rw [List.length_append, List.length_take, List.length_replicate]
    omega

theorem toNat_stringBytes {s : Option String} {maxLength : ℕ} {b : UInt8}
    (h : b ∈ stringBytes s maxLength) : b.toNat < 128 := by
  unfold stringBytes at h
  cases s with
  | none =>
    rw [List.eq_of_mem_replicate h]
    decide
  | some s =>
    obtain htake | hzero := List.mem_append.1 h
    · obtain ⟨c, -, rfl⟩ := List.mem_map.1 (List.mem_of_mem_take htake)
      exact toNat_asciiByte c
    · rw [List.eq_of_mem_replicate hzero]
      decide

theorem reread_eq_iff {maxLength : ℕ} {s : String} : reread maxLength s = s ↔ IsName maxLength s := by
  constructor
  · intro h
    have hlist : trim ((stringBytes (some s) maxLength).map asciiChar) = s.toList := by
      have := congrArg String.toList h
      rwa [reread, String.toList_ofList] at this
    have hsublist : ((stringBytes (some s) maxLength).map asciiChar |> trim).Sublist
        ((stringBytes (some s) maxLength).map asciiChar) :=
      (List.rdropWhile_prefix _ _).sublist.trans (List.dropWhile_sublist _)
    rw [hlist] at hsublist
    refine ⟨?_, ?_, ?_⟩
    · have hle := hsublist.length_le
      rwa [List.length_map, length_stringBytes] at hle
    · intro c hc
      obtain ⟨b, hb, rfl⟩ := List.mem_map.1 (hsublist.subset hc)
      exact toNat_asciiChar (toNat_stringBytes hb)
    · rw [← hlist, trim_trim]
  · rintro ⟨hle, hascii, htrim⟩
    have hmap : (s.toList.map asciiByte).map asciiChar = s.toList := by
      rw [List.map_map]
      exact (List.map_congr_left fun c hc => asciiChar_asciiByte (hascii c hc)).trans (List.map_id _)
    unfold reread stringBytes
    dsimp only
    rw [List.take_of_length_le (by rwa [List.length_map]), List.map_append, hmap, List.map_replicate,
      trim_append_blanks, htrim, String.ofList_toList]
    intro c hc
    rw [List.eq_of_mem_replicate hc]
    decide

/-! ## Options -/

/-- An option with a length and data. -/
structure Ordinary (option : DHCPOption) : Prop where
  bare : isBare option.code = false
  data : ∃ data, option.data = some data ∧ data.length = option.length.toNat

/-- Ordinary options, and perhaps `END` behind them. -/
def AreRead (options : List DHCPOption) : Prop :=
  ∃ ordinary, (∀ option ∈ ordinary, Ordinary option) ∧
    (options = ordinary ∨ options = ordinary ++ [.end])

theorem Ordinary.code_ne {option : DHCPOption} (h : Ordinary option) : option.code ≠ 0 ∧ option.code ≠ 255 := by
  have hbare := h.bare
  unfold isBare at hbare
  simpa using hbare

theorem Ordinary.bytes_eq {option : DHCPOption} (h : Ordinary option) :
    ∃ data, option = ⟨option.code, option.length, some data⟩ ∧ data.length = option.length.toNat ∧
      optionBytes option = [option.code] ++ ([option.length] ++ data) := by
  obtain ⟨data, hdata, hlength⟩ := h.data
  refine ⟨data, ?_, hlength, ?_⟩
  · cases option
    cases hdata
    rfl
  · unfold optionBytes
    rw [h.bare, hdata]
    rfl

variable {front bs : List UInt8} {options : List DHCPOption} {fuel : ℕ}

theorem parses_readOption (code length : UInt8) {data : List UInt8} (h : data.length = length.toNat) :
    Decoder.Parses (readOption code) ([length] ++ data) ⟨code, length, some data⟩ := by
  intro front ys
  unfold readOption
  have hdata := parses_getBytes data
  rw [h] at hdata
  rw [remaining_run, if_pos (by simp), List.append_assoc, (parses_getByte _).run, remaining_run,
    if_pos (by simp [h]), hdata.run, List.append_assoc]
  rfl

theorem readOptions_ordinary {ordinary : List DHCPOption} (h : ∀ option ∈ ordinary, Ordinary option) :
    ∀ front options, readOptions (fuel + ordinary.length) options
      (.behind front (ordinary.flatMap optionBytes ++ bs)) =
        readOptions fuel (options ++ ordinary) (.behind (front ++ ordinary.flatMap optionBytes) bs) := by
  induction ordinary with
  | nil =>
    intro front options
    simp
  | cons option ordinary ih =>
    intro front options
    have hoption := h option List.mem_cons_self
    obtain ⟨data, heq, hlength, hbytes⟩ := hoption.bytes_eq
    have hread := parses_readOption option.code option.length hlength
    rw [← heq] at hread
    rw [List.length_cons, ← Nat.add_assoc, List.flatMap_cons, hbytes]
    conv_lhs => unfold readOptions
    rw [remaining_run, if_pos (by simp), List.append_assoc, List.append_assoc,
      (parses_getByte _).run, if_neg hoption.code_ne.1, if_neg hoption.code_ne.2, hread.run,
      if_neg hoption.code_ne.2, ih fun o ho => h o (List.mem_cons_of_mem _ ho)]
    simp only [List.append_assoc, List.singleton_append]

theorem readOptions_zeros (n : ℕ) : ∀ front, readOptions (fuel + n) options
    (.behind front (List.replicate n 0 ++ bs)) =
      readOptions fuel options (.behind (front ++ List.replicate n 0) bs) := by
  induction n with
  | zero =>
    intro front
    simp
  | succ n ih =>
    intro front
    rw [← Nat.add_assoc, List.replicate_succ, ← List.singleton_append, List.append_assoc]
    conv_lhs => unfold readOptions
    rw [remaining_run, if_pos (by simp), (parses_getByte _).run, if_pos rfl, ih, List.append_assoc]

theorem readOptions_end : readOptions (fuel + 1) options (.behind front ([255] ++ bs)) =
    .ok (options ++ [.end], .behind (front ++ [255]) bs) := by
  unfold readOptions
  rw [remaining_run, if_pos (by simp), (parses_getByte _).run, if_neg (by decide), if_pos rfl]
  rfl

theorem readOptions_nil : readOptions (fuel + 1) options (.behind front []) =
    .ok (options, .behind front []) := by
  unfold readOptions
  rw [remaining_run, if_neg (by simp)]
  rfl

theorem yields_readOption (code : UInt8) : Yields (readOption code) fun option =>
    option = .end ∨ option.code = code ∧
      ∃ data, option.data = some data ∧ data.length = option.length.toNat := by
  refine .after fun left => .ite (fun _ => ?_) fun _ => yields_pure (.inl rfl)
  refine .after fun length => .after fun left => .ite (fun _ => ?_) fun _ => yields_pure (.inl rfl)
  exact (yields_getBytes _).bind fun data hdata => yields_pure (.inr ⟨rfl, data, rfl, hdata⟩)

/-- What is read with some options before it. -/
def Extends (options read : List DHCPOption) : Prop := options.length ≤ read.length ∧ AreRead read

/-- A code that is not zero is the code of one option more. -/
theorem yields_code {code : UInt8} (hzero : code ≠ 0) (hoptions : ∀ option ∈ options, Ordinary option)
    (hloop : ∀ options, (∀ option ∈ options, Ordinary option) →
      Yields (readOptions fuel options) (Extends options)) :
    Yields (do
      if code = 255 then return options ++ [.end]
      else
        let option ← readOption code
        if option.code = 255 then return options ++ [option]
        else readOptions fuel (options ++ [option]))
      fun read => options.length < read.length ∧ AreRead read := by
  have hend : options.length < (options ++ [DHCPOption.end]).length ∧ AreRead (options ++ [.end]) :=
    ⟨by simp, options, hoptions, .inr rfl⟩
  refine .ite (fun _ => yields_pure hend) fun hne => ?_
  refine (yields_readOption code).bind fun option hoption => .ite (fun hcode => ?_) fun hcode => ?_
  · obtain rfl | ⟨rfl, -⟩ := hoption
    · exact yields_pure hend
    · exact absurd hcode hne
  · obtain rfl | ⟨rfl, hdata⟩ := hoption
    · exact absurd rfl hcode
    · have hbare : isBare option.code = false := by
        unfold isBare
        simp [hzero, hne]
      have hall : ∀ o ∈ options ++ [option], Ordinary o := by
        intro o ho
        obtain ho | ho := List.mem_append.1 ho
        · exact hoptions o ho
        · rw [List.mem_singleton.1 ho]
          exact ⟨hbare, hdata⟩
      refine (hloop _ hall).mono fun read ⟨hle, hare⟩ => ⟨?_, hare⟩
      rw [List.length_append] at hle
      exact hle

theorem yields_readOptions (fuel : ℕ) : ∀ options, (∀ option ∈ options, Ordinary option) →
    Yields (readOptions fuel options) (Extends options) := by
  induction fuel with
  | zero => exact fun _ _ => yields_throw _
  | succ fuel ih =>
    intro options hoptions
    refine .after fun left => .ite (fun _ => ?_) fun _ => ?_
    · refine .after fun code => .ite (fun _ => ih options hoptions) fun hzero => ?_
      exact (yields_code hzero hoptions ih).mono fun read ⟨hlt, hare⟩ => ⟨hlt.le, hare⟩
    · exact yields_pure ⟨le_rfl, options, hoptions, .inl rfl⟩

theorem lt_of_readOptions {code : UInt8} (hzero : code ≠ 0) (hoptions : ∀ option ∈ options, Ordinary option)
    {read : List DHCPOption} {b : ByteBuffer}
    (h : readOptions (fuel + 1) options (.behind front ([code] ++ bs)) = .ok (read, b)) :
    options.length < read.length := by
  unfold readOptions at h
  rw [remaining_run, if_pos (by simp), (parses_getByte _).run, if_neg hzero] at h
  exact (yields_code hzero hoptions (yields_readOptions fuel) _ _ _ h).1

/-- Behind the options, nothing is read of zeros only. -/
theorem readOptions_padding_iff (hoptions : ∀ option ∈ options, Ordinary option) :
    ∀ front fuel, bs.length < fuel →
      ((∃ b, readOptions fuel options (.behind front bs) = .ok (options, b)) ↔ ∀ b ∈ bs, b = 0) := by
  induction bs with
  | nil =>
    rintro front (_ | fuel) hfuel
    · exact absurd hfuel (Nat.not_lt_zero _)
    · rw [readOptions_nil]
      exact ⟨fun _ => nofun, fun _ => ⟨_, rfl⟩⟩
  | cons b bs ih =>
    rintro front (_ | fuel) hfuel
    · exact absurd hfuel (Nat.not_lt_zero _)
    · rw [List.forall_mem_cons]
      by_cases hzero : b = 0
      · have hskip : readOptions (fuel + 1) options (.behind front (0 :: bs)) = _ :=
          readOptions_zeros 1 front
        rw [hzero, hskip, ih _ _ (Nat.lt_of_succ_lt_succ hfuel)]
        exact ⟨fun h => ⟨rfl, h⟩, And.right⟩
      · constructor
        · rintro ⟨b', hread⟩
          exact absurd (lt_of_readOptions hzero hoptions hread) (lt_irrefl _)
        · exact fun h => absurd h.1 hzero

/-! ## Messages -/

/-- A message as it is before its options. -/
def headBytes (p : DHCP) : List UInt8 :=
  [p.opCode] ++ ([p.hardwareType] ++ ([p.hardwareAddressLength] ++ ([p.hops] ++
    (bytesOf 4 p.transactionId.toNat ++ (bytesOf 2 p.seconds.toNat ++ (bytesOf 2 p.flags.toNat ++
    (bytesOf 4 p.clientIPAddress.toNat ++ (bytesOf 4 p.yourIPAddress.toNat ++
    (bytesOf 4 p.serverIPAddress.toNat ++ (bytesOf 4 p.gatewayIPAddress.toNat ++
    (p.clientHardwareAddress.getD [] ++
    (List.replicate (16 - (p.clientHardwareAddress.getD []).length) 0 ++
    (stringBytes p.serverName 64 ++ (stringBytes p.bootFileName 128 ++ [0x63, 0x82, 0x53, 0x63]))))))))))))))

theorem putList_eq (p : DHCP) : p.putList = p.headBytes ++ p.options.flatMap optionBytes := by
  unfold putList headBytes
  simp

theorem minHeaderLength_le (p : DHCP) : minHeaderLength ≤ p.headBytes.length := by
  unfold headBytes minHeaderLength
  simp only [List.length_append, length_bytesOf, length_stringBytes, List.length_replicate,
    List.length_cons, List.length_nil]
  omega

/-- A message with an address of its length, with names and with options. -/
structure Read (p : DHCP) : Prop where
  address : ∃ address, p.clientHardwareAddress = some address ∧
    address.length = p.hardwareAddressLength.toNat
  serverName : ∃ s, p.serverName = some s
  bootFileName : ∃ s, p.bootFileName = some s
  options : AreRead p.options

theorem parses_readString {maxLength : ℕ} {xs : List UInt8} (h : xs.length = maxLength) :
    Decoder.Parses (readString maxLength) xs (.ofList (trim (xs.map asciiChar))) := by
  refine (reads_readString maxLength).parses h fun ys => ?_
  rw [← h, List.take_left]

theorem parses_skipBytes {n : ℕ} {xs : List UInt8} (h : xs.length = n) : Decoder.Parses (skipBytes n) xs () :=
  (reads_skipBytes n).parses h fun _ => rfl

/-- What is decoded of what is written of a message. -/
theorem deserialize_headBytes {p : DHCP} {address : List UInt8} {s b : String}
    (haddress : p.clientHardwareAddress = some address)
    (hlength : address.length = p.hardwareAddressLength.toNat) (hs : p.serverName = some s)
    (hb : p.bootFileName = some b) (tail : List UInt8) :
    ∃ front, deserialize (p.headBytes ++ tail) 0 (p.headBytes ++ tail).length =
      (fun r => { p with
        serverName := some (reread 64 s)
        bootFileName := some (reread 128 b)
        options := r.1 }) <$> readOptions (tail.length + 1) [] (.behind front tail) := by
  have hmin := p.minHeaderLength_le
  have hnot : ¬(p.headBytes ++ tail).length < minHeaderLength := by
    rw [List.length_append]
    omega
  have haddress' := parses_getBytes address
  rw [hlength] at haddress'
  have hskip : (List.replicate (16 - address.length) (0 : UInt8)).length =
      16 - p.hardwareAddressLength.toNat := by rw [List.length_replicate, hlength]
  have hcookie : Decoder.Parses (skipBytes 4) [0x63, 0x82, 0x53, 0x63] () := parses_skipBytes rfl
  unfold deserialize
  rw [decode_all, remaining_run, if_neg hnot]
  unfold headBytes
  simp only [List.append_assoc, haddress, hs, hb, Option.getD_some]
  rw [(parses_getByte _).run, (parses_getByte _).run, (parses_getByte _).run, (parses_getByte _).run,
    (parses_getInt _).run, (parses_getShort _).run, (parses_getShort _).run, (parses_getInt _).run,
    (parses_getInt _).run, (parses_getInt _).run, (parses_getInt _).run, haddress'.run,
    (parses_skipBytes hskip).run, (parses_readString (length_stringBytes _ _)).run,
    (parses_readString (length_stringBytes _ _)).run, hcookie.run, remaining_run]
  exact ⟨_, map_bind_pure⟩

theorem read_of_deserialize {data : List UInt8} {offset length : ℕ} {p : DHCP}
    (h : deserialize data offset length = .ok p) : p = new ∨ p.Read := by
  unfold deserialize at h
  refine Yields.decode (P := fun p => p = new ∨ p.Read) ?_ h
  refine .after fun left => .ite (fun _ => yields_pure (.inl rfl)) fun _ => ?_
  refine .after fun _ => .after fun _ => .after fun hardwareAddressLength => .after fun _ =>
    .after fun _ => .after fun _ => .after fun _ => .after fun _ => .after fun _ => .after fun _ => .after fun _ => ?_
  refine (yields_getBytes _).bind fun address haddress => .after fun _ => .after fun s => .after fun b =>
    .after fun _ => .after fun left => ?_
  refine (yields_readOptions _ [] (List.forall_mem_nil _)).bind fun options hoptions => yields_pure (.inr ?_)
  exact ⟨⟨address, rfl, haddress⟩, ⟨s, rfl⟩, ⟨b, rfl⟩, hoptions.2⟩

/-- A message with an address of its length, whose names are names and whose options are not padded. They
end with `END`, or with the message and zeros behind it. -/
structure Canonical (p : DHCP) (padding : List UInt8) : Prop where
  address : ∃ address, p.clientHardwareAddress = some address ∧
    address.length = p.hardwareAddressLength.toNat
  serverName : ∃ s, p.serverName = some s ∧ IsName 64 s
  bootFileName : ∃ s, p.bootFileName = some s ∧ IsName 128 s
  options : ∃ ordinary, (∀ option ∈ ordinary, Ordinary option) ∧
    (p.options = ordinary ++ [.end] ∨ p.options = ordinary ∧ ∀ b ∈ padding, b = 0)
  le : p.putList.length ≤ 240 + max (optionsLength p.options) 60

/-- Some bytes with a padding behind them are a message that is given back. -/
def Kept (bs padding : List UInt8) : Prop := ∃ p : DHCP, p.Canonical padding ∧ bs = p.bytes

theorem length_le_flatMap (options : List DHCPOption) :
    options.length ≤ (options.flatMap optionBytes).length := by
  induction options with
  | nil => exact le_rfl
  | cons option options ih =>
    have hpos : 0 < (optionBytes option).length := by
      unfold optionBytes
      split_ifs <;> simp
    rw [List.flatMap_cons, List.length_append, List.length_cons]
    omega

/-- The message is decoded as it is if its names are, and its options end. -/
theorem deserialize_bytes_iff {p : DHCP} {s b : String} {ordinary : List DHCPOption} {padding : List UInt8}
    (haddress : ∃ address, p.clientHardwareAddress = some address ∧
      address.length = p.hardwareAddressLength.toNat)
    (hs : p.serverName = some s) (hb : p.bootFileName = some b)
    (hordinary : ∀ option ∈ ordinary, Ordinary option)
    (hoptions : p.options = ordinary ∨ p.options = ordinary ++ [.end]) :
    deserialize (p.bytes ++ padding) 0 (p.bytes ++ padding).length = .ok p ↔
      IsName 64 s ∧ IsName 128 b ∧
        (p.options = ordinary ++ [.end] ∨ p.options = ordinary ∧ ∀ b ∈ padding, b = 0) := by
  obtain ⟨address, haddress, hlength⟩ := haddress
  obtain ⟨zeros, hzeros⟩ : ∃ n, p.bytes = p.putList ++ List.replicate n 0 := ⟨_, rfl⟩
  obtain ⟨tail, htail⟩ : ∃ tail,
      tail = p.options.flatMap optionBytes ++ (List.replicate zeros 0 ++ padding) := ⟨_, rfl⟩
  have hbytes : p.bytes ++ padding = p.headBytes ++ tail := by
    rw [hzeros, putList_eq, htail]
    simp only [List.append_assoc]
  obtain ⟨front, hdecode⟩ := deserialize_headBytes haddress hlength hs hb tail
  have hle := length_le_flatMap ordinary
  rw [hbytes, hdecode]
  have hsame : ∀ read : List DHCPOption,
      ({ p with
        serverName := some (reread 64 s)
        bootFileName := some (reread 128 b)
        options := read } = p ↔ IsName 64 s ∧ IsName 128 b ∧ read = p.options) := by
    intro read
    rw [← reread_eq_iff, ← reread_eq_iff]
    constructor
    · intro h
      have hs' := congrArg DHCP.serverName h
      have hb' := congrArg DHCP.bootFileName h
      exact ⟨Option.some.inj (hs'.trans hs), Option.some.inj (hb'.trans hb), congrArg DHCP.options h⟩
    · rintro ⟨hs', hb', rfl⟩
      rw [hs', hb', ← hs, ← hb]
  have hok : ∀ r : Except Stop (List DHCPOption × ByteBuffer),
      ((fun r => ({ p with
        serverName := some (reread 64 s)
        bootFileName := some (reread 128 b)
        options := r.1 } : DHCP)) <$> r = .ok p ↔
      IsName 64 s ∧ IsName 128 b ∧ ∃ b, r = .ok (p.options, b)) := by
    rintro (e | ⟨read, b'⟩)
    · exact ⟨nofun, fun h => nomatch h.2.2.choose_spec⟩
    · constructor
      · intro h
        obtain ⟨hs', hb', hread⟩ := (hsame read).1 (Except.ok.inj h)
        exact ⟨hs', hb', b', by rw [hread]⟩
      · rintro ⟨hs', hb', b'', h⟩
        cases h
        exact congrArg Except.ok ((hsame _).2 ⟨hs', hb', rfl⟩)
  rw [hok, and_congr_right_iff]
  intro _
  rw [and_congr_right_iff]
  intro _
  obtain hoptions | hoptions := hoptions
  · have hne : ¬ordinary = ordinary ++ [.end] := by simp
    rw [hoptions] at htail ⊢
    have hfuel : tail.length + 1 = tail.length + 1 - ordinary.length + ordinary.length := by
      rw [htail, List.length_append]
      omega
    have hlt : (List.replicate zeros 0 ++ padding).length < tail.length + 1 - ordinary.length := by
      have hsize := congrArg List.length htail
      simp only [List.length_append] at hsize ⊢
      omega
    rw [hfuel]
    conv_lhs => rw [htail]
    rw [readOptions_ordinary hordinary, ← htail, List.nil_append, readOptions_padding_iff hordinary _ _ hlt]
    simp only [List.mem_append, hne, false_or, true_and]
    constructor
    · exact fun h b hb => h b (.inr hb)
    · rintro h b (hb | hb)
      · exact List.eq_of_mem_replicate hb
      · exact h b hb
  · have hbytes : (ordinary ++ [DHCPOption.end]).flatMap optionBytes =
        ordinary.flatMap optionBytes ++ [255] := by
      rw [List.flatMap_append]
      rfl
    rw [hoptions] at htail ⊢
    rw [hbytes, List.append_assoc] at htail
    obtain ⟨fuel, hfuel⟩ : ∃ fuel, tail.length + 1 = fuel + 1 + ordinary.length := by
      refine ⟨tail.length - ordinary.length, ?_⟩
      rw [htail, List.length_append]
      omega
    rw [hfuel, htail, readOptions_ordinary hordinary, List.nil_append, readOptions_end]
    exact ⟨fun _ => .inl rfl, fun _ => ⟨_, rfl⟩⟩

theorem Canonical.fits {p : DHCP} {padding : List UInt8} (h : p.Canonical padding) : p.Fits := by
  obtain ⟨⟨address, haddress, -⟩, -, -, ⟨ordinary, hordinary, hend⟩, hle⟩ := h
  refine ⟨Option.ne_none_iff_exists'.2 ⟨address, haddress⟩, ?_, hle⟩
  intro option hmem hbare
  have hmem' : option ∈ ordinary ∨ option = .end := by
    obtain h | ⟨h, -⟩ := hend
    · rw [h] at hmem
      exact (List.mem_append.1 hmem).imp_right List.mem_singleton.1
    · exact .inl (h ▸ hmem)
  obtain hmem' | rfl := hmem'
  · obtain ⟨data, hdata, -⟩ := (hordinary option hmem').data
    exact Option.ne_none_iff_exists'.2 ⟨data, hdata⟩
  · exact nomatch hbare

theorem kept_iff (bs padding : List UInt8) :
    (∃ p, deserialize (bs ++ padding) 0 (bs ++ padding).length = .ok p ∧ p.serialize = .ok bs) ↔
      Kept bs padding := by
  constructor
  · rintro ⟨p, hdecode, hserialize⟩
    have hfits : p.Fits := by
      by_contra hnot
      exact nomatch (serialize_error hnot).symm.trans hserialize
    obtain rfl : p.bytes = bs := Except.ok.inj ((serialize_eq hfits).symm.trans hserialize)
    obtain rfl | ⟨haddress, ⟨s, hs⟩, ⟨b, hb⟩, ordinary, hordinary, hoptions⟩ := read_of_deserialize hdecode
    · exact absurd rfl hfits.address
    · obtain ⟨hname, hname', hend⟩ := (deserialize_bytes_iff haddress hs hb hordinary hoptions).1 hdecode
      exact ⟨p, ⟨haddress, ⟨s, hs, hname⟩, ⟨b, hb, hname'⟩, ⟨ordinary, hordinary, hend⟩, hfits.le⟩, rfl⟩
  · rintro ⟨p, hcanonical, rfl⟩
    obtain ⟨haddress, ⟨s, hs, hname⟩, ⟨b, hb, hname'⟩, ⟨ordinary, hordinary, hend⟩, -⟩ := id hcanonical
    exact ⟨p, (deserialize_bytes_iff haddress hs hb hordinary (hend.symm.imp And.left id)).2
      ⟨hname, hname', hend⟩, serialize_eq hcanonical.fits⟩

/-! ## Messages that are sent -/

/-- What is decoded of what is written of a message. -/
def relay (p : DHCP) : Except Stop DHCP := do
  let data ← p.serialize
  deserialize data 0 data.length

theorem relay_iff (p : DHCP) : p.relay = .ok p ↔ p.Canonical [] := by
  unfold relay
  constructor
  · intro h
    by_cases hfits : p.Fits
    · rw [serialize_eq hfits, ok_bind] at h
      have hdecode : deserialize (p.bytes ++ []) 0 (p.bytes ++ []).length = .ok p := by
        rw [List.append_nil]
        exact h
      obtain rfl | ⟨haddress, ⟨s, hs⟩, ⟨b, hb⟩, ordinary, hordinary, hoptions⟩ := read_of_deserialize h
      · exact absurd rfl hfits.address
      · obtain ⟨hname, hname', hend⟩ :=
          (deserialize_bytes_iff haddress hs hb hordinary hoptions).1 hdecode
        exact ⟨haddress, ⟨s, hs, hname⟩, ⟨b, hb, hname'⟩, ⟨ordinary, hordinary, hend⟩, hfits.le⟩
    · rw [serialize_error hfits] at h
      exact nomatch h
  · intro h
    obtain ⟨haddress, ⟨s, hs, hname⟩, ⟨b, hb, hname'⟩, ⟨ordinary, hordinary, hend⟩, -⟩ := id h
    have hdecode := (deserialize_bytes_iff haddress hs hb hordinary (hend.symm.imp And.left id)).2
      ⟨hname, hname', hend⟩
    rw [List.append_nil] at hdecode
    rw [serialize_eq h.fits, ok_bind]
    exact hdecode

theorem length_optionBytes {option : DHCPOption} (h : isBare option.code = true ∨ Ordinary option) :
    (optionBytes option).length = if isBare option.code then 1 else 2 + option.length.toNat := by
  obtain hbare | hordinary := h
  · unfold optionBytes
    rw [if_pos hbare, if_pos hbare]
    rfl
  · obtain ⟨data, -, hlength, hbytes⟩ := hordinary.bytes_eq
    rw [hbytes, hordinary.bare, ← hlength]
    simp
    omega

theorem length_flatMap_optionBytes {options : List DHCPOption}
    (h : ∀ option ∈ options, isBare option.code = true ∨ Ordinary option) :
    (options.flatMap optionBytes).length = optionsLength options := by
  unfold optionsLength
  rw [List.length_flatMap]
  exact congrArg List.sum (List.map_congr_left fun option hoption => length_optionBytes (h option hoption))

theorem length_headBytes {p : DHCP} (h : (p.clientHardwareAddress.getD []).length ≤ 16) :
    p.headBytes.length = 240 := by
  unfold headBytes
  simp only [List.length_append, length_bytesOf, length_stringBytes, List.length_replicate,
    List.length_cons, List.length_nil]
  omega

/-- A message with an address of at most 16 bytes, with names, and with `END` behind its options is decoded
as it was written if the address has its length, the names are trimmed and fit, and no option that is a code
only is before `END`, which has no data. -/
theorem deserialize_serialize_iff {p : DHCP} {address : List UInt8} {s b : String}
    {options : List DHCPOption} {last : DHCPOption} (haddress : p.clientHardwareAddress = some address)
    (hle : address.length ≤ 16) (hs : p.serverName = some s) (hb : p.bootFileName = some b)
    (hoptions : p.options = options ++ [last]) (hlast : last.code = 255) :
    p.relay = .ok p ↔
      address.length = p.hardwareAddressLength.toNat ∧ IsName 64 s ∧ IsName 128 b ∧
        (∀ option ∈ options, Ordinary option) ∧ last = .end := by
  rw [relay_iff]
  constructor
  · rintro ⟨⟨address', haddress', hlength⟩, ⟨s', hs', hname⟩, ⟨b', hb', hname'⟩,
      ⟨ordinary, hordinary, hend⟩, -⟩
    cases haddress.symm.trans haddress'
    cases hs.symm.trans hs'
    cases hb.symm.trans hb'
    refine ⟨hlength, hname, hname', ?_⟩
    rw [hoptions] at hend
    obtain hend | ⟨hsame, -⟩ := hend
    · obtain ⟨rfl, hlast⟩ := List.append_inj' hend rfl
      exact ⟨hordinary, List.singleton_inj.1 hlast⟩
    · have hmem : last ∈ ordinary := hsame ▸ List.mem_append_right _ (List.mem_singleton.2 rfl)
      exact absurd hlast (hordinary last hmem).code_ne.2
  · rintro ⟨hlength, hname, hname', hordinary, rfl⟩
    have hsize : (p.options.flatMap optionBytes).length = optionsLength p.options := by
      refine length_flatMap_optionBytes fun option hmem => ?_
      rw [hoptions, List.mem_append, List.mem_singleton] at hmem
      obtain hmem | rfl := hmem
      · exact .inr (hordinary option hmem)
      · exact .inl rfl
    have hhead : p.headBytes.length = 240 := length_headBytes (by rwa [haddress, Option.getD_some])
    refine ⟨⟨address, haddress, hlength⟩, ⟨s, hs, hname⟩, ⟨b, hb, hname'⟩,
      ⟨options, hordinary, .inl hoptions⟩, ?_⟩
    rw [putList_eq, List.length_append, hhead, hsize]
    omega

/-- An offer with a name and one option. -/
def offer : DHCP :=
  { new with
    opCode := 2
    hardwareAddressLength := 6
    clientHardwareAddress := some [0, 0, 0, 0, 0, 1]
    serverName := some "server"
    bootFileName := some ""
    options := [⟨53, 1, some [2]⟩, .end] }

theorem deserialize_serialize_offer : offer.relay = .ok offer := by
  refine (deserialize_serialize_iff (p := offer) rfl (by decide) rfl rfl
    (show offer.options = [_] ++ [_] from rfl) rfl).2 ⟨rfl, ?_, ?_, ?_, rfl⟩
  · exact ⟨by decide, List.all_iff_forall_prop.1 (by decide), by decide⟩
  · exact ⟨by decide, List.all_iff_forall_prop.1 (by decide), by decide⟩
  · simp only [List.forall_mem_singleton]
    exact ⟨rfl, _, rfl, rfl⟩

/-- The blank before a name is lost, and so is an option `PAD`. -/
theorem not_deserialize_serialize :
    ({ offer with serverName := some " server" } : DHCP).relay ≠
        .ok { offer with serverName := some " server" } ∧
      ({ offer with options := ⟨0, 0, none⟩ :: offer.options } : DHCP).relay ≠
        .ok { offer with options := ⟨0, 0, none⟩ :: offer.options } := by
  constructor
  · intro h
    obtain ⟨-, ⟨s, hs, hname⟩, -, -, -⟩ := (relay_iff _).1 h
    cases hs
    exact absurd hname.trim (by decide)
  · intro h
    obtain ⟨-, -, -, ⟨ordinary, hordinary, hend⟩, -⟩ := (relay_iff _).1 h
    have hmem : (⟨0, 0, none⟩ : DHCPOption) ∈ ordinary := by
      obtain hend | ⟨hend, -⟩ := hend
      · have hfirst : (⟨0, 0, none⟩ : DHCPOption) ∈ ordinary ++ [.end] := hend ▸ List.mem_cons_self
        exact (List.mem_append.1 hfirst).resolve_right (by decide)
      · exact hend ▸ List.mem_cons_self
    exact absurd rfl (hordinary _ hmem).code_ne.1

end DHCP

end Torpedo
