import Mathlib.Data.Bool.AllAny
import Torpedo.StaticEntryManager.StaticFlowEntry

/-!
# Prerequisites of match fields

`checkMatchPrerequisite` compares the spellings of an ether type and of a protocol, where `makeMatch` reads
numbers, and it does not look at all fields.
-/

namespace Torpedo

namespace StaticFlowEntry

variable {ι : Type} (fac : OFFactory ι) (entry : Entry)

/-! ## What the fields need -/

/-- The field is in the entry, and is not null. -/
def Given (field : String) : Prop := ∃ v, entry.get field = some v ∧ v ≠ .null

instance (field : String) : Decidable (Given entry field) :=
  match h : entry.get field with
  | none => .isFalse fun ⟨_, hv, _⟩ => nomatch h.symm.trans hv
  | some .null => .isFalse fun ⟨_, hv, hnull⟩ => hnull (Option.some.inj (hv.symm.trans h))
  | some (.boolean b) => .isTrue ⟨.boolean b, h, nofun⟩
  | some (.number text) => .isTrue ⟨.number text, h, nofun⟩
  | some (.string s) => .isTrue ⟨.string s, h, nofun⟩
  | some (.list vs) => .isTrue ⟨.list vs, h, nofun⟩
  | some (.map fields) => .isTrue ⟨.map fields, h, nofun⟩

/-- `makeMatch` reads one of these ether types. -/
def ReadsEthType (types : List ℤ) : Prop := ∃ n ∈ types, readEthType fac entry = .ok n

def ReadsProtocol (n : ℤ) : Prop := readProtocol fac entry = .ok n

/-- The fields that are not looked at have what they need. `ipTypes` are the ether types of the fields of the
type of service. -/
structure Unchecked (ipTypes : List ℤ) : Prop where
  service : Given entry "ip_dscp" ∨ Given entry "ip_ecn" → ReadsEthType fac entry ipTypes
  udp : Given entry "udp_src" ∨ Given entry "udp_dst" → ReadsProtocol fac entry 17
  sctp : Given entry "sctp_src" ∨ Given entry "sctp_dst" → ReadsProtocol fac entry 132
  icmp : Given entry "icmpv4_type" ∨ Given entry "icmpv4_code" → ReadsProtocol fac entry 1
  arp : (∃ field ∈ ["arp_op", "arp_spa", "arp_tpa", "arp_sha", "arp_tha"], Given entry field) →
    ReadsEthType fac entry [0x0806]
  mplsTc : Given entry "mpls_tc" → ReadsEthType fac entry [0x8847, 0x8848]
  vlanVid : Given entry "vlan_pcp" → Given entry "vlan_vid"

/-- Every field that is given has what it needs. -/
structure Prerequisites (ipTypes : List ℤ) : Prop extends Unchecked fac entry ipTypes where
  address : Given entry "ipv4_src" ∨ Given entry "ipv4_dst" → ReadsEthType fac entry [0x0800, 0x0806]
  protocol : Given entry "ip_proto" → ReadsEthType fac entry [0x0800, 0x86dd]
  tcp : Given entry "tcp_src" ∨ Given entry "tcp_dst" → ReadsProtocol fac entry 6
  mplsLabel : Given entry "mpls_label" → ReadsEthType fac entry [0x8847, 0x8848]

/-! ## What is looked at -/

/-- The field is one of these strings. -/
def Among (field : String) (spellings : List String) : Prop := ∃ s ∈ spellings, entry.get field = some (.string s)

def ethTypesOfAddresses : List String := ["0x0800", "0x800", "800", "0x0806", "806"]

def ethTypesOfMpls : List String := ["0x8847", "8847", "0x8848", "8848"]

/-- Where a field is in the entry that is looked at, even if it is null, the ether type and the protocol are
spelled as they are compared. -/
structure Spelled : Prop where
  address : entry.containsKey "ipv4_src" ∨ entry.containsKey "ipv4_dst" → Among entry "eth_type" ethTypesOfAddresses
  tcp : entry.containsKey "tcp_src" ∨ entry.containsKey "tcp_dst" →
    Among entry "eth_type" ethTypesOfIp ∧ Among entry "ip_proto" ["6"]
  protocol : entry.containsKey "ip_proto" → Among entry "eth_type" ethTypesOfIp
  mplsLabel : entry.containsKey "mpls_label" → Among entry "eth_type" ethTypesOfMpls
  vlanVid : entry.containsKey "vlan_pcp" → entry.containsKey "vlan_vid"

variable {fac entry}

theorem Given.containsKey {field : String} (h : Given entry field) : entry.containsKey field := by
  obtain ⟨v, hv, -⟩ := h
  unfold HashMap.containsKey
  rw [hv]
  rfl

theorem Among.given {field : String} {spellings : List String} (h : Among entry field spellings) :
    Given entry field := by
  obtain ⟨s, -, hs⟩ := h
  exact ⟨.string s, hs, nofun⟩

theorem Among.mono {field : String} {spellings spellings' : List String} (h : Among entry field spellings)
    (hsub : ∀ s ∈ spellings, s ∈ spellings') : Among entry field spellings' := by
  obtain ⟨s, hmem, hs⟩ := h
  exact ⟨s, hsub s hmem, hs⟩

theorem cast_eq_ok {field s : String} : cast entry field = .ok (some s) ↔ entry.get field = some (.string s) := by
  unfold cast
  cases hv : entry.get field with
  | none => simp [castString, pure, Except.pure]
  | some v => cases v <;> simp [castString, pure, Except.pure, throw, throwThe, MonadExceptOf.throw]

theorem checkSpelling_ok_iff (spelling : Spelling) :
    checkSpelling entry spelling = .ok () ↔ Among entry spelling.field spelling.spellings := by
  unfold checkSpelling
  cases hcast : cast entry spelling.field with
  | error e =>
    refine ⟨nofun, fun ⟨s, _, hs⟩ => ?_⟩
    exact nomatch hcast.symm.trans (cast_eq_ok.2 hs)
  | ok s =>
    cases s with
    | none =>
      refine ⟨nofun, fun ⟨s, _, hs⟩ => ?_⟩
      exact nomatch hcast.symm.trans (cast_eq_ok.2 hs)
    | some s =>
      have hs := cast_eq_ok.1 hcast
      show (if s ∈ spelling.spellings then Except.ok () else _) = Except.ok () ↔ _
      split_ifs with hmem
      · exact ⟨fun _ => ⟨s, hmem, hs⟩, fun _ => rfl⟩
      · refine ⟨nofun, fun ⟨s', hmem', hs'⟩ => ?_⟩
        cases hs.symm.trans hs'
        exact absurd hmem' hmem

theorem then_ok_iff {ε : Type} {x y : Except ε Unit} :
    (do
      x
      y) = .ok () ↔ x = .ok () ∧ y = .ok () := by
  cases x with
  | error e => exact ⟨nofun, fun h => nomatch h.1⟩
  | ok u => exact ⟨fun h => ⟨rfl, h⟩, And.right⟩

theorem forM_ok_iff {α ε : Type} {f : α → Except ε Unit} {l : List α} :
    l.forM f = .ok () ↔ ∀ a ∈ l, f a = .ok () := by
  induction l with
  | nil => exact ⟨fun _ => List.forall_mem_nil _, fun _ => rfl⟩
  | cons a l ih =>
    have hcons : (a :: l).forM f = (do
      f a
      l.forM f) := rfl
    rw [hcons, then_ok_iff, ih, List.forall_mem_cons]

/-- The fields that are needed are those that are spelled. -/
theorem checkGroup_ok_iff {fields needed : List String} {message : String} {spellings : List Spelling} :
    checkGroup entry fields needed message spellings = .ok () ↔
      ((∃ field ∈ fields, entry.containsKey field) →
        (∀ field ∈ needed, entry.containsKey field) ∧
          ∀ spelling ∈ spellings, Among entry spelling.field spelling.spellings) := by
  unfold checkGroup
  simp only [List.any_eq_true, List.all_eq_true]
  split_ifs with hany hall
  · rw [forM_ok_iff]
    simp only [checkSpelling_ok_iff]
    exact ⟨fun h _ => ⟨hall, h⟩, fun h => (h hany).2⟩
  · exact ⟨nofun, fun h => absurd (h hany).1 hall⟩
  · exact ⟨fun _ h => absurd h hany, fun _ => rfl⟩

/-- The check accepts what is spelled as it is compared. -/
theorem checkMatchPrerequisite_ok_iff : checkMatchPrerequisite entry = .ok () ↔ Spelled entry := by
  unfold checkMatchPrerequisite
  simp only [then_ok_iff, checkGroup_ok_iff, List.exists_mem_cons_iff, List.not_mem_nil, false_and, exists_false,
    or_false, List.forall_mem_cons, IsEmpty.forall_iff, implies_true, and_true]
  constructor
  · rintro ⟨haddress, htcp, hprotocol, hmpls, hvlan⟩
    exact ⟨fun h => (haddress h).2.mono (by decide), fun h => (htcp h).2, fun h => (hprotocol h).2,
      fun h => (hmpls h).2, hvlan⟩
  · rintro ⟨haddress, htcp, hprotocol, hmpls, hvlan⟩
    refine ⟨fun h => ?_, fun h => ?_, fun h => ?_, fun h => ?_, hvlan⟩
    · exact ⟨(haddress h).given.containsKey, (haddress h).mono (by decide)⟩
    · exact ⟨⟨(htcp h).1.given.containsKey, (htcp h).2.given.containsKey⟩, htcp h⟩
    · exact ⟨(hprotocol h).given.containsKey, hprotocol h⟩
    · exact ⟨(hmpls h).given.containsKey, hmpls h⟩

/-! ## The numbers of the spellings -/

theorem readEthType_of_string {s : String} (hs : entry.get "eth_type" = some (.string s)) {n : ℤ}
    (hascii : ∀ c ∈ removeHexMarks s.toList, c.toNat < 128)
    (hn : Digits.ascii.valueOf 16 32 (.ofList (removeHexMarks s.toList)) = some n) :
    readEthType fac entry = .ok n := by
  unfold readEthType
  rw [cast_eq_ok.2 hs]
  show valueOf fac 16 32 (some _) = _
  unfold valueOf
  rw [Option.bind_some, Digits.valueOf_ascii (by rwa [String.toList_ofList]), hn]
  rfl

/-- The spellings are read as these ether types. -/
def AreRead (spellings : List String) (types : List ℤ) : Prop :=
  ∀ s ∈ spellings, (∀ c ∈ removeHexMarks s.toList, c.toNat < 128) ∧
    ∃ n ∈ types, Digits.ascii.valueOf 16 32 (.ofList (removeHexMarks s.toList)) = some n

instance (spellings : List String) (types : List ℤ) : Decidable (AreRead spellings types) :=
  -- by the characters of the spelling, not by all characters
  letI (s : String) : Decidable (∀ c ∈ removeHexMarks s.toList, c.toNat < 128) := List.decidableBAll _ _
  inferInstanceAs (Decidable (∀ s ∈ spellings, _ ∧ _))

theorem Among.readsEthType {spellings : List String} {types : List ℤ} (h : Among entry "eth_type" spellings)
    (hread : AreRead spellings types) : ReadsEthType fac entry types := by
  obtain ⟨s, hmem, hs⟩ := h
  obtain ⟨hascii, n, hn, hvalue⟩ := hread s hmem
  exact ⟨n, hn, readEthType_of_string hs hascii hvalue⟩

theorem readsProtocol_six (h : Among entry "ip_proto" ["6"]) : ReadsProtocol fac entry 6 := by
  obtain ⟨s, hmem, hs⟩ := h
  cases List.mem_singleton.1 hmem
  unfold ReadsProtocol readProtocol
  rw [cast_eq_ok.2 hs]
  show (if ['0', 'x'] <+: "6".toList then (do
      let value ← valueOf fac 16 32 (some (.ofList (removeHexMarks "6".toList)))
      valueOf fac 10 16 (some value.repr))
    else valueOf fac 10 16 (some "6")) = .ok 6
  rw [if_neg (by decide)]
  unfold valueOf
  rw [Option.bind_some, Digits.valueOf_ascii (List.all_iff_forall_prop.1 (by decide))]
  rfl

/-- What is spelled as it is compared has what it needs. -/
theorem Spelled.prerequisites {ipTypes : List ℤ} (h : Spelled entry) (hunchecked : Unchecked fac entry ipTypes) :
    Prerequisites fac entry ipTypes where
  toUnchecked := hunchecked
  address hgiven := by
    have hcontained := hgiven.imp Given.containsKey Given.containsKey
    exact (h.address hcontained).readsEthType (by decide)
  protocol hgiven := (h.protocol hgiven.containsKey).readsEthType (by decide)
  tcp hgiven := readsProtocol_six (h.tcp (hgiven.imp Given.containsKey Given.containsKey)).2
  mplsLabel hgiven := (h.mplsLabel hgiven.containsKey).readsEthType (by decide)

/-- The check accepts an entry just if all fields have what they need, unless all that is looked at is spelled as
it is compared and a field that is not looked at lacks what it needs, or all fields have what they need and
something is spelled otherwise. -/
theorem checkMatchPrerequisite_iff (fac : OFFactory ι) (entry : Entry) (ipTypes : List ℤ) :
    (checkMatchPrerequisite entry = .ok () ↔ Prerequisites fac entry ipTypes) ↔
      (Spelled entry → Unchecked fac entry ipTypes) ∧ (Prerequisites fac entry ipTypes → Spelled entry) := by
  rw [checkMatchPrerequisite_ok_iff]
  constructor
  · exact fun h => ⟨fun hspelled => (h.1 hspelled).toUnchecked, h.2⟩
  · exact fun ⟨hunchecked, hspelled⟩ => ⟨fun h => h.prerequisites (hunchecked h), hspelled⟩

/-- An ether type, and one more field. -/
def withEthType (ethType field value : String) : Entry :=
  HashMap.put (HashMap.put ∅ "eth_type" (.string ethType)) field (.string value)

/-- An ether type that is spelled without a mark is not known, and the ports of UDP go without their protocol. -/
theorem not_checkMatchPrerequisite :
    (checkMatchPrerequisite (withEthType "0800" "ipv4_src" "10.0.0.1") ≠ .ok () ∧
      Prerequisites (.of13 .ascii fun _ => .ok ()) (withEthType "0800" "ipv4_src" "10.0.0.1") [0x0800]) ∧
    (checkMatchPrerequisite (withEthType "0x0800" "ipv4_src" "10.0.0.1") = .ok () ∧
      readEthType (.of13 .ascii fun _ => .ok ()) (withEthType "0x0800" "ipv4_src" "10.0.0.1") =
        readEthType (.of13 .ascii fun _ => .ok ()) (withEthType "0800" "ipv4_src" "10.0.0.1")) ∧
    (checkMatchPrerequisite (withEthType "0x0800" "udp_dst" "53") = .ok () ∧
      ¬Prerequisites (.of13 .ascii fun _ => .ok ()) (withEthType "0x0800" "udp_dst" "53") [0x0800]) := by
  refine ⟨⟨by decide, ?_⟩, ⟨by decide, by decide⟩, by decide, fun h => ?_⟩
  · exact {
      service := fun h => absurd h (by decide)
      udp := fun h => absurd h (by decide)
      sctp := fun h => absurd h (by decide)
      icmp := fun h => absurd h (by decide)
      arp := fun h => absurd h (by decide)
      mplsTc := fun h => absurd h (by decide)
      vlanVid := fun h => absurd h (by decide)
      address := fun _ => ⟨0x0800, by decide, by decide⟩
      protocol := fun h => absurd h (by decide)
      tcp := fun h => absurd h (by decide)
      mplsLabel := fun h => absurd h (by decide) }
  · have hreads := h.udp (by decide)
    revert hreads
    unfold ReadsProtocol
    decide

end StaticFlowEntry

end Torpedo
