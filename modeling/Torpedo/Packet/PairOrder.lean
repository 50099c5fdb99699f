import Torpedo.Packet.MatchPairs

/-!
# The order of pairs

When a text is loaded to the same match in whatever order its pairs stand, and the ports that it gives for TCP or
UDP are in the match. Ports are not looked at as long as no protocol has been met, so the fields of the ports are
lost in some order. Two spellings of a field are settled by the order, too.
-/

namespace Torpedo

namespace OFProtocol

/-! ## Fields of pairs -/

/-- The field of a port, by the protocol. -/
def transportFields (nwProto : Option ℤ) (icmp tcp udp : MatchField) : List MatchField :=
  if nwProto = some 1 then [icmp] else if nwProto = some 6 then [tcp] else if nwProto = some 17 then [udp] else []

/-- The fields of the settings of a pair. -/
def fieldsOf (nwProto : Option ℤ) (key : String) : List MatchField :=
  match key with
  | "in_port" | "input_port" => [.inPort]
  | "dl_dst" | "eth_dst" => [.ethDst]
  | "dl_src" | "eth_src" => [.ethSrc]
  | "dl_type" | "eth_type" => [.ethType]
  | "dl_vlan" => [.vlanVid]
  | "dl_vpcp" => [.vlanPcp]
  | "nw_dst" | "ip_dst" => [.ipv4Dst]
  | "nw_src" | "ip_src" => [.ipv4Src]
  | "nw_proto" => [.ipProto]
  | "nw_tos" => [.ipDscp, .ipEcn]
  | "tp_dst" => transportFields nwProto .icmpv4Code .tcpDst .udpDst
  | "tp_src" => transportFields nwProto .icmpv4Type .tcpSrc .udpSrc
  | _ => []

def IsPortKey (key : String) : Prop := key = "tp_dst" ∨ key = "tp_src"

instance (key : String) : Decidable (IsPortKey key) := inferInstanceAs (Decidable (_ ∨ _))

/-- The fields of ports, and where they are kept. -/
def portFields : List MatchField := [.icmpv4Code, .tcpDst, .udpDst, .icmpv4Type, .tcpSrc, .udpSrc]

variable {characters : Digits} {version : OFVersion} {unknown : MatchTextFailure} {nwProto : Option ℤ}
  {key value : String} {settings : List FieldSetting} {f : MatchField}

theorem ofNumber_eq_ok {n : ℤ} (h : ofNumber f n = .ok settings) : ∃ n', settings = [⟨f, n', none⟩] := by
  obtain ⟨n', -, h⟩ := of_bind_eq_ok h
  exact ⟨n', (Except.ok.inj h).symm⟩

theorem transport_eq_ok {icmp tcp udp : MatchField}
    (h : transport characters nwProto icmp tcp udp value = .ok settings) :
    settings.map FieldSetting.field = transportFields nwProto icmp tcp udp ∧ ∀ s ∈ settings, s.mask = none := by
  unfold transport at h
  unfold transportFields
  split_ifs at h ⊢
  · obtain ⟨n, -, h⟩ := of_bind_eq_ok h
    obtain ⟨n', rfl⟩ := ofNumber_eq_ok h
    exact ⟨rfl, by simp⟩
  · obtain ⟨n, -, h⟩ := of_bind_eq_ok h
    obtain ⟨n', rfl⟩ := ofNumber_eq_ok h
    exact ⟨rfl, by simp⟩
  · obtain ⟨n, -, h⟩ := of_bind_eq_ok h
    obtain ⟨n', rfl⟩ := ofNumber_eq_ok h
    exact ⟨rfl, by simp⟩
  · cases h
    exact ⟨rfl, by simp⟩

theorem map_field_number {number : Except MatchTextFailure ℤ} (h : (number >>= ofNumber f) = .ok settings) :
    settings.map FieldSetting.field = [f] := by
  obtain ⟨n, -, h⟩ := of_bind_eq_ok h
  obtain ⟨n', rfl⟩ := ofNumber_eq_ok h
  rfl

theorem map_field_readMac (h : readMac characters f value = .ok settings) :
    settings.map FieldSetting.field = [f] := by
  obtain ⟨address, -, h⟩ := of_bind_eq_ok h
  cases h
  rfl

theorem map_field_cidr {masked : Except MatchTextFailure Masked} {which : Which}
    (h : (masked >>= fun masked => return [cidrSetting which masked]) = .ok settings) :
    settings.map FieldSetting.field = [which.field] := by
  obtain ⟨masked, -, h⟩ := of_bind_eq_ok h
  cases h
  rfl

theorem map_field_protocol {protocol : Except MatchTextFailure ℤ}
    (h : (protocol >>= fun n => return [⟨.ipProto, n, none⟩]) = .ok settings) :
    settings.map FieldSetting.field = [.ipProto] := by
  obtain ⟨n, -, h⟩ := of_bind_eq_ok h
  cases h
  rfl

theorem map_field_readTos (h : readTos characters value = .ok settings) :
    settings.map FieldSetting.field = [.ipDscp, .ipEcn] := by
  obtain ⟨scratch, -, h⟩ := of_bind_eq_ok h
  obtain ⟨dscp, hdscp, h⟩ := of_bind_eq_ok h
  obtain ⟨ecn, hecn, h⟩ := of_bind_eq_ok h
  obtain ⟨n, rfl⟩ := ofNumber_eq_ok hdscp
  obtain ⟨n', rfl⟩ := ofNumber_eq_ok hecn
  cases h
  rfl

/-- The key says which fields are set. -/
theorem map_field_settingsOf (h : settingsOf characters unknown nwProto key value = .ok settings) :
    settings.map FieldSetting.field = fieldsOf nwProto key := by
  unfold settingsOf at h
  unfold fieldsOf
  split at h
  · exact map_field_number h
  · exact map_field_number h
  · exact map_field_readMac h
  · exact map_field_readMac h
  · exact map_field_readMac h
  · exact map_field_readMac h
  · exact map_field_number h
  · exact map_field_number h
  · exact map_field_number h
  · exact map_field_number h
  · exact map_field_cidr h
  · exact map_field_cidr h
  · exact map_field_cidr h
  · exact map_field_cidr h
  · exact map_field_protocol h
  · exact map_field_readTos h
  · exact (transport_eq_ok h).1
  · exact (transport_eq_ok h).1
  · exact nomatch h

/-- Only for the keys of ports the protocol counts. -/
theorem settingsOf_eq (hkey : ¬IsPortKey key) :
    settingsOf characters unknown nwProto key value = settingsOf characters unknown none key value := by
  unfold settingsOf
  split
  all_goals first | rfl | exact absurd (.inl rfl) hkey | exact absurd (.inr rfl) hkey

/-- As long as there is no protocol, a port is not looked at. -/
theorem settingsOf_none (hkey : IsPortKey key) : settingsOf characters unknown none key value = .ok [] := by
  obtain rfl | rfl := hkey <;> rfl

theorem mask_of_settingsOf (hkey : IsPortKey key)
    (h : settingsOf characters unknown nwProto key value = .ok settings) : ∀ s ∈ settings, s.mask = none := by
  obtain rfl | rfl := hkey
  · exact (transport_eq_ok h).2
  · exact (transport_eq_ok h).2

theorem mem_transportFields {icmp tcp udp : MatchField} (h : f ∈ transportFields nwProto icmp tcp udp) :
    f ∈ [icmp, tcp, udp] := by
  unfold transportFields at h
  split_ifs at h <;> simp_all

theorem mem_portFields (hkey : IsPortKey key) (h : f ∈ fieldsOf nwProto key) : f ∈ portFields := by
  obtain rfl | rfl := hkey
  · exact List.mem_append_left [_, _, _] (mem_transportFields h)
  · exact List.mem_append_right [_, _, _] (mem_transportFields h)

theorem notMem_portFields (hkey : ¬IsPortKey key) (h : f ∈ fieldsOf nwProto key) : f ∉ portFields := by
  have hfields : ∀ fields : List MatchField, (∀ g ∈ fields, g ∉ portFields) → f ∈ fields → f ∉ portFields :=
    fun _ hall hf => hall f hf
  unfold fieldsOf at h
  split at h
  all_goals first | exact hfields _ (by decide) h | exact absurd (.inl rfl) hkey | exact absurd (.inr rfl) hkey

/-- The fields of a pair are kept at different places. -/
theorem nodup_slots (version : OFVersion) (nwProto : Option ℤ) (key : String) :
    ((fieldsOf nwProto key).map (slot version)).Nodup := by
  have htransport : ∀ icmp tcp udp, ((transportFields nwProto icmp tcp udp).map (slot version)).Nodup := by
    intro icmp tcp udp
    unfold transportFields
    split_ifs <;> simp
  unfold fieldsOf
  split
  all_goals first | exact htransport _ _ _ | exact List.nodup_singleton _ | cases version <;> decide

theorem slot_mem_portFields_iff : slot version f ∈ portFields ↔ f ∈ portFields := by
  cases version <;> cases f <;> decide

/-! ## Settings of pairs -/

section

variable (characters : Digits) (version : OFVersion)

/-- The settings that a pair makes. -/
def made (nwProto : Option ℤ) (p : Pair) : List FieldSetting := (pairSettings characters version nwProto p).getD []

/-- The protocol that pairs give. -/
def protocolOf (pairs : List Pair) : Option ℤ :=
  (pairs.find? fun p => p.name = "nw_proto").bind fun p => (readProtocol characters p.valueText).toOption

/-- What pairs say about fields, ports apart: what the first one says that does. -/
def said (pairs : List Pair) : OfMatch MatchField ℤ := fun f =>
  ((pairs.flatMap (made characters version none)).find? fun s => slot version s.field = f).bind content

end

variable {p q : Pair} {pairs pairs' : List Pair} {s t : FieldSetting}

theorem pairSettings_eq (hp : ¬IsPortKey p.name) :
    pairSettings characters version nwProto p = pairSettings characters version none p := by
  unfold pairSettings
  rw [settingsOf_eq hp]

theorem pairSettings_none (hp : IsPortKey p.name) : pairSettings characters version none p = some [] := by
  unfold pairSettings
  rw [settingsOf_none hp]
  rfl

theorem made_eq (hp : ¬IsPortKey p.name) : made characters version nwProto p = made characters version none p := by
  unfold made
  rw [pairSettings_eq hp]

theorem made_none (hp : IsPortKey p.name) : made characters version none p = [] := by
  unfold made
  rw [pairSettings_none hp]
  rfl

theorem not_isPortKey_of_mem_made (h : s ∈ made characters version none p) : ¬IsPortKey p.name := by
  intro hp
  rw [made_none hp] at h
  exact absurd h List.not_mem_nil

theorem settingsOf_of_mem_made (h : s ∈ made characters version nwProto p) :
    settingsOf characters .runtime nwProto p.name p.valueText = .ok (made characters version nwProto p) := by
  unfold made at h ⊢
  cases hsettings : pairSettings characters version nwProto p with
  | none =>
    rw [hsettings] at h
    exact absurd h List.not_mem_nil
  | some settings => exact (pairSettings_eq_some_iff.1 hsettings).1

theorem field_mem_fieldsOf (h : s ∈ made characters version nwProto p) : s.field ∈ fieldsOf nwProto p.name :=
  map_field_settingsOf (settingsOf_of_mem_made h) ▸ List.mem_map_of_mem h

/-- Two settings of a pair are kept at different places. -/
theorem eq_of_slot_eq (hs : s ∈ made characters version nwProto p) (ht : t ∈ made characters version nwProto p)
    (h : slot version s.field = slot version t.field) : s = t := by
  have hnodup := nodup_slots version nwProto p.name
  rw [← map_field_settingsOf (settingsOf_of_mem_made hs), List.map_map] at hnodup
  exact List.inj_on_of_nodup_map hnodup hs ht h

/-- A setting is one of a port just if it is kept where ports are. -/
theorem slot_mem_portFields (h : s ∈ made characters version nwProto p) :
    slot version s.field ∈ portFields ↔ IsPortKey p.name := by
  rw [slot_mem_portFields_iff]
  by_cases hp : IsPortKey p.name
  · exact iff_of_true (mem_portFields hp (field_mem_fieldsOf h)) hp
  · exact iff_of_false (notMem_portFields hp (field_mem_fieldsOf h)) hp

theorem content_of_isPortKey (hp : IsPortKey p.name) (h : s ∈ made characters version nwProto p) :
    content s = some ⟨s.value, none⟩ := by
  unfold content
  rw [mask_of_settingsOf hp (settingsOf_of_mem_made h) s h]

/-! ## The protocol -/

theorem nextProtocol_of_ne (h : key ≠ "nw_proto") : nextProtocol characters key value nwProto = nwProto := if_neg h

theorem find_protocol (hnames : (pairs.map Pair.name).Nodup) (hp : p ∈ pairs) (hname : p.name = "nw_proto") :
    pairs.find? (fun p => p.name = "nw_proto") = some p := by
  have hsome : (pairs.find? fun p => p.name = "nw_proto").isSome :=
    List.find?_isSome.2 ⟨p, hp, decide_eq_true hname⟩
  obtain ⟨x, hx⟩ := Option.isSome_iff_exists.1 hsome
  have hfound := List.find?_some hx
  have hxname : x.name = "nw_proto" := of_decide_eq_true hfound
  rw [hx, List.inj_on_of_nodup_map hnames (List.mem_of_find?_eq_some hx) hp (hxname.trans hname.symm)]

theorem nextProtocol_of_eq (hnames : (pairs.map Pair.name).Nodup) (hp : p ∈ pairs) (hname : p.name = "nw_proto") :
    nextProtocol characters p.name p.valueText nwProto = protocolOf characters pairs := by
  unfold nextProtocol protocolOf
  rw [if_pos hname, find_protocol hnames hp hname]
  rfl

/-- The protocol after a pair is the one of all pairs, or the one before. -/
theorem nextProtocol_eq_or (hnames : (pairs.map Pair.name).Nodup) (hp : p ∈ pairs)
    (h : nwProto = none ∨ nwProto = protocolOf characters pairs) :
    nextProtocol characters p.name p.valueText nwProto = none ∨
      nextProtocol characters p.name p.valueText nwProto = protocolOf characters pairs := by
  by_cases hname : p.name = "nw_proto"
  · exact .inr (nextProtocol_of_eq hnames hp hname)
  · rwa [nextProtocol_of_ne hname]

/-! ## Settings in some order -/

theorem settingsIn_cons : settingsIn characters version nwProto (p :: pairs) =
    made characters version nwProto p ++
      settingsIn characters version (nextProtocol characters p.name p.valueText nwProto) pairs :=
  rfl

theorem accepted_of_forall (hnames : (pairs.map Pair.name).Nodup)
    (hread : ∀ p ∈ pairs, (pairSettings characters version none p).isSome ∧
      (pairSettings characters version (protocolOf characters pairs) p).isSome)
    (hsub : ∀ p ∈ pairs', p ∈ pairs) (h : nwProto = none ∨ nwProto = protocolOf characters pairs) :
    Accepted characters version nwProto pairs' := by
  induction pairs' generalizing nwProto with
  | nil => exact trivial
  | cons p pairs' ih =>
    obtain ⟨hp, hpairs'⟩ := List.forall_mem_cons.1 hsub
    refine ⟨?_, ih hpairs' (nextProtocol_eq_or hnames hp h)⟩
    obtain rfl | rfl := h
    · exact (hread p hp).1
    · exact (hread p hp).2

theorem isSome_of_accepted (h : Accepted characters version nwProto pairs) (hp : p ∈ pairs) :
    (pairSettings characters version none p).isSome := by
  induction pairs generalizing nwProto with
  | nil => exact absurd hp List.not_mem_nil
  | cons q pairs ih =>
    obtain rfl | hp := List.mem_cons.1 hp
    · by_cases hport : IsPortKey p.name
      · rw [pairSettings_none hport]
        rfl
      · rw [← pairSettings_eq hport]
        exact h.1
    · exact ih h.2 hp

/-- A setting is made by a pair without a protocol, or with the one of all pairs. -/
theorem exists_of_mem_settingsIn (hnames : (pairs.map Pair.name).Nodup) (hsub : ∀ p ∈ pairs', p ∈ pairs)
    (h : nwProto = none ∨ nwProto = protocolOf characters pairs)
    (hs : s ∈ settingsIn characters version nwProto pairs') :
    ∃ p ∈ pairs', s ∈ made characters version none p ∨
      IsPortKey p.name ∧ s ∈ made characters version (protocolOf characters pairs) p := by
  induction pairs' generalizing nwProto with
  | nil => exact absurd hs List.not_mem_nil
  | cons p pairs' ih =>
    obtain ⟨hp, hpairs'⟩ := List.forall_mem_cons.1 hsub
    obtain hs | hs := List.mem_append.1 hs
    · refine ⟨p, List.mem_cons_self, ?_⟩
      by_cases hport : IsPortKey p.name
      · obtain rfl | rfl := h
        · exact .inl hs
        · exact .inr ⟨hport, hs⟩
      · exact .inl (made_eq hport ▸ hs)
    · obtain ⟨q, hq, hmade⟩ := ih hpairs' (nextProtocol_eq_or hnames hp h) hs
      exact ⟨q, List.mem_cons_of_mem _ hq, hmade⟩

theorem mem_settingsIn (hp : p ∈ pairs) (hs : s ∈ made characters version none p) :
    s ∈ settingsIn characters version nwProto pairs := by
  induction pairs generalizing nwProto with
  | nil => exact absurd hp List.not_mem_nil
  | cons q pairs ih =>
    obtain rfl | hp := List.mem_cons.1 hp
    · rw [settingsIn_cons, made_eq (not_isPortKey_of_mem_made hs)]
      exact List.mem_append_left _ hs
    · exact List.mem_append_right _ (ih hp)

/-- While the protocol stays, each pair makes its settings for it. -/
theorem accepted_iff_of_ne (h : ∀ p ∈ pairs, p.name ≠ "nw_proto") :
    Accepted characters version nwProto pairs ↔
      ∀ p ∈ pairs, (pairSettings characters version nwProto p).isSome := by
  induction pairs with
  | nil => exact iff_of_true trivial fun _ hp => absurd hp List.not_mem_nil
  | cons p pairs ih =>
    obtain ⟨hp, hpairs⟩ := List.forall_mem_cons.1 h
    rw [List.forall_mem_cons, ← ih hpairs, accepted_cons, nextProtocol_of_ne hp]

theorem settingsIn_of_ne (h : ∀ p ∈ pairs, p.name ≠ "nw_proto") :
    settingsIn characters version nwProto pairs = pairs.flatMap (made characters version nwProto) := by
  induction pairs with
  | nil => rfl
  | cons p pairs ih =>
    obtain ⟨hp, hpairs⟩ := List.forall_mem_cons.1 h
    rw [settingsIn_cons, nextProtocol_of_ne hp, ih hpairs, List.flatMap_cons]

/-- What follows pairs that do not change the protocol. -/
theorem settingsIn_append_of_ne (h : ∀ p ∈ pairs, p.name ≠ "nw_proto") :
    settingsIn characters version nwProto (pairs ++ pairs') =
      settingsIn characters version nwProto pairs ++ settingsIn characters version nwProto pairs' := by
  induction pairs with
  | nil => rfl
  | cons p pairs ih =>
    obtain ⟨hp, hpairs⟩ := List.forall_mem_cons.1 h
    rw [List.cons_append, settingsIn_cons, settingsIn_cons, nextProtocol_of_ne hp, ih hpairs, List.append_assoc]

/-- The settings of the last pair come last. -/
theorem settingsIn_concat (nwProto : Option ℤ) (pairs : List Pair) (hp : ¬IsPortKey p.name) : ∃ settings,
    settingsIn characters version nwProto (pairs ++ [p]) = settings ++ made characters version none p := by
  induction pairs generalizing nwProto with
  | nil =>
    refine ⟨[], ?_⟩
    rw [List.nil_append, settingsIn_cons, made_eq hp, List.nil_append]
    exact List.append_nil _
  | cons q pairs ih =>
    obtain ⟨settings, h⟩ := ih (nextProtocol characters q.name q.valueText nwProto)
    refine ⟨made characters version nwProto q ++ settings, ?_⟩
    rw [List.append_assoc, ← h]
    rfl

/-! ## Orders -/

section

variable (characters : Digits) (version : OFVersion) (pairs : List Pair)

/-- The field of a port for TCP or UDP. -/
def portField (nwProto : Option ℤ) (key : String) : MatchField :=
  if nwProto = some 6 then if key = "tp_dst" then .tcpDst else .tcpSrc
  else if key = "tp_dst" then .udpDst else .udpSrc

/-- A pair gives the number of a port, and the protocol is TCP or UDP. -/
def GivesPort (p : Pair) (n : ℤ) : Prop :=
  p ∈ pairs ∧ IsPortKey p.name ∧
    (protocolOf characters pairs = some 6 ∨ protocolOf characters pairs = some 17) ∧
    characters.valueOf 10 32 p.valueText = some n ∧ 0 ≤ n ∧ n < 65536

/-- In whatever order the pairs stand, their text is loaded to the same match. -/
def LoadsTo (m : OfMatch MatchField ℤ) : Prop :=
  ∀ pairs' : List Pair, pairs'.Perm pairs → loadOFMatchFromString characters version (Pair.textOf pairs') = .ok m

/-- In whatever order the pairs stand, their text is loaded to the same match, and the ports are in it. -/
def Settled : Prop :=
  ∃ m, LoadsTo characters version pairs m ∧
    ∀ p n, GivesPort characters pairs p n →
      m (slot version (portField (protocolOf characters pairs) p.name)) = some ⟨n, none⟩

/-- All pairs can be read with the protocol, those that are for the same place agree, and none is for a port. Where
nothing is kept when the match is built, that does not matter, but then there must not be numbers of ports. -/
structure Unambiguous : Prop where
  read : ∀ p ∈ pairs, (pairSettings characters version (protocolOf characters pairs) p).isSome
  agree : ∀ p ∈ pairs, ∀ q ∈ pairs, ∀ s ∈ made characters version none p, ∀ t ∈ made characters version none q,
    slot version s.field = slot version t.field →
      keeps version (said characters version pairs) (slot version s.field) → content s = content t
  noPort : ∀ p ∈ pairs, IsPortKey p.name → ∀ s ∈ made characters version (protocolOf characters pairs) p,
    keeps version (said characters version pairs) (slot version s.field) = false
  noNumber : ∀ p n, ¬GivesPort characters pairs p n

end

/-- What is kept depends on the ether type, and on the protocol for packets of IPv4. -/
theorem keeps_congr {b b' : OfMatch MatchField ℤ} (htype : version = .of10 → b .ethType = b' .ethType)
    (hproto : version = .of10 → b .ethType = some ⟨0x0800, none⟩ → b .ipProto = b' .ipProto) :
    keeps version b f = keeps version b' f := by
  cases version with
  | of10 =>
    unfold keeps
    rw [← htype rfl]
    by_cases hip : b .ethType = some ⟨0x0800, none⟩
    · rw [← hproto rfl hip]
    · simp only [hip]
      cases f <;> rfl
  | _ => rfl

theorem keeps_ethType (b : OfMatch MatchField ℤ) : keeps .of10 b .ethType = true := rfl

theorem keeps_ipProto {b : OfMatch MatchField ℤ} (h : b .ethType = some ⟨0x0800, none⟩) :
    keeps .of10 b .ipProto = true := by
  unfold keeps
  simp [h]

/-- What a builder keeps of unambiguous pairs is what they say, in whatever order they stand. -/
theorem Unambiguous.loaded_eq (h : Unambiguous characters version pairs) (hnames : (pairs.map Pair.name).Nodup)
    (hperm : pairs'.Perm pairs) (hf : keeps version (said characters version pairs) f) :
    loaded characters version pairs' f = said characters version pairs f := by
  have hwrites : ∀ w ∈ (settingsIn characters version none pairs').map (writeOf version), w.1 = f →
      ∃ p ∈ pairs, ∃ s ∈ made characters version none p, w = writeOf version s := by
    intro w hw hkey
    obtain ⟨s, hs, rfl⟩ := List.mem_map.1 hw
    obtain ⟨p, hp, hmade | ⟨hport, hmade⟩⟩ :=
      exists_of_mem_settingsIn hnames (fun p hp => hperm.mem_iff.1 hp) (.inl rfl) hs
    · exact ⟨p, hperm.mem_iff.1 hp, s, hmade, rfl⟩
    · have hnot := h.noPort p (hperm.mem_iff.1 hp) hport s hmade
      obtain rfl : slot version s.field = f := hkey
      exact nomatch hnot.symm.trans hf
  cases hfind : (pairs.flatMap (made characters version none)).find? fun s => slot version s.field = f with
  | none =>
    unfold loaded said
    rw [hfind, writes_of_forall_ne fun w hw hkey => ?_]
    · rfl
    · obtain ⟨p, hp, s, hs, rfl⟩ := hwrites w hw hkey
      have hslot := List.find?_eq_none.1 hfind s (List.mem_flatMap.2 ⟨p, hp, hs⟩)
      exact hslot (decide_eq_true hkey)
  | some t =>
    have hfound := List.find?_some hfind
    have hslot : slot version t.field = f := of_decide_eq_true hfound
    obtain ⟨q, hq, ht⟩ := List.mem_flatMap.1 (List.mem_of_find?_eq_some hfind)
    unfold loaded said
    rw [hfind]
    refine writes_eq ⟨writeOf version t, ?_, hslot⟩ fun w hw hkey => ?_
    · exact List.mem_map_of_mem (mem_settingsIn (hperm.mem_iff.2 hq) ht)
    · obtain ⟨p, hp, s, hs, rfl⟩ := hwrites w hw hkey
      have hsame : slot version s.field = slot version t.field := Eq.trans hkey hslot.symm
      exact h.agree p hp q hq s hs t ht hsame (hsame ▸ hslot ▸ hf)

theorem Unambiguous.keeps_loaded (h : Unambiguous characters version pairs) (hnames : (pairs.map Pair.name).Nodup)
    (hperm : pairs'.Perm pairs) :
    keeps version (loaded characters version pairs') f = keeps version (said characters version pairs) f := by
  have htype : version = .of10 →
      loaded characters version pairs' .ethType = said characters version pairs .ethType := by
    rintro rfl
    exact h.loaded_eq hnames hperm (keeps_ethType _)
  refine keeps_congr htype fun hversion hip => ?_
  subst hversion
  exact h.loaded_eq hnames hperm (keeps_ipProto ((htype rfl).symm.trans hip))

theorem Unambiguous.build_loaded (h : Unambiguous characters version pairs) (hnames : (pairs.map Pair.name).Nodup)
    (hperm : pairs'.Perm pairs) :
    build version (loaded characters version pairs') = build version (said characters version pairs) := by
  funext f
  unfold build
  rw [h.keeps_loaded hnames hperm]
  split_ifs with hf
  · exact h.loaded_eq hnames hperm hf
  · rfl

/-- Unambiguous pairs are settled. -/
theorem Unambiguous.settled (h : Unambiguous characters version pairs) (hnames : (pairs.map Pair.name).Nodup)
    (haccepted : Accepted characters version none pairs) : Settled characters version pairs := by
  refine ⟨build version (said characters version pairs), fun pairs' hperm => load_eq_ok_iff.2 ⟨?_, ?_⟩,
    fun p n hgives => absurd hgives (h.noNumber p n)⟩
  · exact accepted_of_forall hnames (fun p hp => ⟨isSome_of_accepted haccepted hp, h.read p hp⟩)
      (fun p hp => hperm.mem_iff.1 hp) (.inl rfl)
  · exact (h.build_loaded hnames hperm).symm

/-! ## Orders that tell -/

variable (characters version) in
/-- The ports may come first. Then none is in the match. -/
theorem exists_ports_first (hnames : (pairs.map Pair.name).Nodup) : ∃ pairs' : List Pair, pairs'.Perm pairs ∧
    ∀ f ∈ portFields, loaded characters version pairs' f = none := by
  set ports := pairs.filter fun p => IsPortKey p.name with hports
  set others := pairs.filter fun p => !decide (IsPortKey p.name) with hothers
  have hport : ∀ p ∈ ports, IsPortKey p.name := fun p hp => of_decide_eq_true (List.mem_filter.1 hp).2
  have hother : ∀ p ∈ others, ¬IsPortKey p.name := fun p hp => by simpa using (List.mem_filter.1 hp).2
  have hne : ∀ p ∈ ports, p.name ≠ "nw_proto" := by
    intro p hp hname
    have hkey := hport p hp
    rw [hname] at hkey
    exact absurd hkey (by decide)
  have hnone : settingsIn characters version none ports = [] := by
    rw [settingsIn_of_ne hne, List.flatMap_eq_nil_iff]
    exact fun p hp => made_none (hport p hp)
  refine ⟨ports ++ others, List.filter_append_perm _ _, fun f hf => ?_⟩
  unfold loaded
  rw [settingsIn_append_of_ne hne, hnone, List.nil_append, writes_of_forall_ne]
  intro w hw hkey
  obtain ⟨s, hs, rfl⟩ := List.mem_map.1 hw
  obtain ⟨p, hp, hmade | ⟨hp', -⟩⟩ := exists_of_mem_settingsIn hnames
    (fun p hp => (List.mem_filter.1 hp).1) (.inl rfl) hs
  · obtain rfl : slot version s.field = f := hkey
    exact hother p hp ((slot_mem_portFields hmade).1 hf)
  · exact hother p hp hp'

variable (characters) in
/-- The protocol may come first, if there is one. -/
theorem exists_protocol_first (hnames : (pairs.map Pair.name).Nodup) : protocolOf characters pairs = none ∨
    ∃ q rest, q.name = "nw_proto" ∧ (q :: rest).Perm pairs ∧ ∀ p ∈ rest, p.name ≠ "nw_proto" := by
  by_cases hex : ∃ q ∈ pairs, q.name = "nw_proto"
  · obtain ⟨q, hq, hname⟩ := hex
    obtain ⟨before, after, rfl⟩ := List.append_of_mem hq
    have hperm : (q :: (before ++ after)).Perm (before ++ q :: after) := List.perm_middle.symm
    refine .inr ⟨q, before ++ after, hname, hperm, fun p hp hpname => ?_⟩
    have hnodup := (hperm.map Pair.name).nodup_iff.2 hnames
    rw [List.map_cons, List.nodup_cons] at hnodup
    exact hnodup.1 (hname.trans hpname.symm ▸ List.mem_map_of_mem hp)
  · refine .inl ?_
    unfold protocolOf
    rw [List.find?_eq_none.2 fun p hp hname => hex ⟨p, hp, of_decide_eq_true hname⟩]
    rfl

/-- After the protocol all pairs are read with it. -/
theorem read_of_protocol_first {rest : List Pair} (hnames : (pairs.map Pair.name).Nodup) (hq : q.name = "nw_proto")
    (hperm : (q :: rest).Perm pairs) (hrest : ∀ p ∈ rest, p.name ≠ "nw_proto")
    (h : Accepted characters version none (q :: rest)) (hp : p ∈ pairs) :
    (pairSettings characters version (protocolOf characters pairs) p).isSome := by
  have hport : ¬IsPortKey q.name := hq ▸ by decide
  rw [accepted_cons, nextProtocol_of_eq hnames (hperm.mem_iff.1 List.mem_cons_self) hq,
    accepted_iff_of_ne hrest] at h
  obtain rfl | hp := List.mem_cons.1 (hperm.mem_iff.2 hp)
  · rw [pairSettings_eq hport]
    exact h.1
  · exact h.2 p hp

/-- After the protocol a port that is read is in the builder. -/
theorem loaded_protocol_first_ne {rest : List Pair} (hnames : (pairs.map Pair.name).Nodup)
    (hq : q.name = "nw_proto") (hperm : (q :: rest).Perm pairs) (hrest : ∀ p ∈ rest, p.name ≠ "nw_proto") (hp : p ∈ pairs)
    (hport : IsPortKey p.name) (hs : s ∈ made characters version (protocolOf characters pairs) p) :
    loaded characters version (q :: rest) (slot version s.field) ≠ none := by
  have hqport : ¬IsPortKey q.name := hq ▸ by decide
  have hsettings : settingsIn characters version none (q :: rest) = made characters version none q ++
      rest.flatMap (made characters version (protocolOf characters pairs)) := by
    rw [settingsIn_cons, nextProtocol_of_eq hnames (hperm.mem_iff.1 List.mem_cons_self) hq, settingsIn_of_ne hrest]
  have hmem : s ∈ settingsIn characters version none (q :: rest) := by
    rw [hsettings]
    obtain rfl | hp := List.mem_cons.1 (hperm.mem_iff.2 hp)
    · exact absurd hport hqport
    · exact List.mem_append_right _ (List.mem_flatMap.2 ⟨p, hp, hs⟩)
  obtain ⟨w, hw, hkey, hvalue⟩ := exists_mem_writes (m := fun _ => none)
    ⟨writeOf version s, List.mem_map_of_mem hmem, rfl⟩
  intro hnone
  have hwnone : w.2 = none := hvalue.symm.trans hnone
  obtain ⟨t, ht, rfl⟩ := List.mem_map.1 hw
  have hslot : slot version t.field ∈ portFields := by
    have hsame : slot version t.field = slot version s.field := hkey
    rw [hsame, slot_mem_portFields hs]
    exact hport
  rw [hsettings] at ht
  obtain ht | ht := List.mem_append.1 ht
  · exact absurd ((slot_mem_portFields ht).1 hslot) hqport
  · obtain ⟨p', -, ht⟩ := List.mem_flatMap.1 ht
    exact nomatch hwnone.symm.trans (content_of_isPortKey ((slot_mem_portFields ht).1 hslot) ht)

variable (characters version) in
/-- A pair may come last. Then what it says is in the builder. -/
theorem exists_last (hp : p ∈ pairs) : ∃ pairs' : List Pair, pairs'.Perm pairs ∧
    ∀ s ∈ made characters version none p, loaded characters version pairs' (slot version s.field) = content s := by
  obtain ⟨before, after, rfl⟩ := List.append_of_mem hp
  refine ⟨before ++ after ++ [p], ?_, fun s hs => ?_⟩
  · exact (List.perm_append_singleton p (before ++ after)).trans List.perm_middle.symm
  · obtain ⟨settings, hsettings⟩ := settingsIn_concat none (before ++ after) (not_isPortKey_of_mem_made hs)
    unfold loaded
    rw [hsettings, List.map_append]
    refine writes_append_eq ⟨writeOf version s, List.mem_map_of_mem hs, rfl⟩ fun w hw hkey => ?_
    obtain ⟨t, ht, rfl⟩ := List.mem_map.1 hw
    exact congrArg content (eq_of_slot_eq ht hs hkey)

/-! ## Settled pairs -/

variable {m : OfMatch MatchField ℤ}

theorem LoadsTo.eq_build (h : LoadsTo characters version pairs m) (hperm : pairs'.Perm pairs) :
    m = build version (loaded characters version pairs') :=
  (load_eq_ok_iff.1 (h pairs' hperm)).2

/-- What is always kept is what the pairs say, if it is not of a port. -/
theorem LoadsTo.loaded_eq (h : LoadsTo characters version pairs m) (hnames : (pairs.map Pair.name).Nodup)
    (hf : f ∉ portFields)
    (hkeeps : ∀ pairs' : List Pair, pairs'.Perm pairs → keeps version (loaded characters version pairs') f)
    (hperm : pairs'.Perm pairs) :
    loaded characters version pairs' f = said characters version pairs f := by
  have hm : ∀ pairs' : List Pair, pairs'.Perm pairs → m f = loaded characters version pairs' f := by
    intro pairs' hperm
    rw [h.eq_build hperm]
    exact if_pos (hkeeps pairs' hperm)
  rw [← hm pairs' hperm]
  cases hfind : (pairs.flatMap (made characters version none)).find? fun s => slot version s.field = f with
  | none =>
    rw [hm pairs (.refl _)]
    unfold loaded said
    rw [hfind, writes_of_forall_ne]
    · rfl
    · intro w hw hkey
      obtain ⟨s, hs, rfl⟩ := List.mem_map.1 hw
      obtain ⟨p, hp, hmade | ⟨hport, hmade⟩⟩ := exists_of_mem_settingsIn hnames (fun _ hp => hp) (.inl rfl) hs
      · exact List.find?_eq_none.1 hfind s (List.mem_flatMap.2 ⟨p, hp, hmade⟩) (decide_eq_true hkey)
      · obtain rfl : slot version s.field = f := hkey
        exact hf ((slot_mem_portFields hmade).2 hport)
  | some t =>
    have hfound := List.find?_some hfind
    have hslot : slot version t.field = f := of_decide_eq_true hfound
    obtain ⟨q, hq, ht⟩ := List.mem_flatMap.1 (List.mem_of_find?_eq_some hfind)
    obtain ⟨last, hlast, hcontent⟩ := exists_last characters version hq
    rw [hm last hlast, ← hslot, hcontent t ht, hslot]
    unfold said
    rw [hfind]
    rfl

theorem LoadsTo.keeps_loaded (h : LoadsTo characters version pairs m) (hnames : (pairs.map Pair.name).Nodup)
    (hperm : pairs'.Perm pairs) :
    keeps version (loaded characters version pairs') f = keeps version (said characters version pairs) f := by
  have htype : version = .of10 → ∀ pairs' : List Pair, pairs'.Perm pairs →
      loaded characters version pairs' .ethType = said characters version pairs .ethType := by
    rintro rfl pairs' hperm
    exact h.loaded_eq hnames (by decide) (fun _ _ => keeps_ethType _) hperm
  refine keeps_congr (fun hversion => htype hversion pairs' hperm) fun hversion hip => ?_
  refine h.loaded_eq hnames (by decide) (fun pairs₁ hperm₁ => ?_) hperm
  have hsame := (htype hversion pairs₁ hperm₁).trans ((htype hversion pairs' hperm).symm.trans hip)
  subst hversion
  exact keeps_ipProto hsame

/-- A setting of a field that is kept is in the match. -/
theorem LoadsTo.eq_content (h : LoadsTo characters version pairs m) (hnames : (pairs.map Pair.name).Nodup)
    (hp : p ∈ pairs) (hs : s ∈ made characters version none p)
    (hkeeps : keeps version (said characters version pairs) (slot version s.field)) :
    m (slot version s.field) = content s := by
  obtain ⟨last, hlast, hcontent⟩ := exists_last characters version hp
  rw [h.eq_build hlast, ← hcontent s hs]
  exact if_pos ((h.keeps_loaded hnames hlast).trans hkeeps)

theorem LoadsTo.agree (h : LoadsTo characters version pairs m) (hnames : (pairs.map Pair.name).Nodup)
    (hp : p ∈ pairs) (hq : q ∈ pairs) (hs : s ∈ made characters version none p)
    (ht : t ∈ made characters version none q) (hslot : slot version s.field = slot version t.field)
    (hkeeps : keeps version (said characters version pairs) (slot version s.field)) : content s = content t := by
  rw [← h.eq_content hnames hp hs hkeeps, hslot]
  exact h.eq_content hnames hq ht (hslot ▸ hkeeps)

/-- The fields of ports are not in the match. -/
theorem LoadsTo.eq_none (h : LoadsTo characters version pairs m) (hnames : (pairs.map Pair.name).Nodup)
    (hf : f ∈ portFields) : m f = none := by
  obtain ⟨first, hfirst, hnone⟩ := exists_ports_first characters version hnames
  rw [h.eq_build hfirst]
  unfold build
  rw [hnone f hf, ite_self]

theorem portField_mem (nwProto : Option ℤ) (key : String) : portField nwProto key ∈ portFields := by
  unfold portField
  split_ifs <;> decide

/-- Pairs that are settled are unambiguous. -/
theorem Settled.unambiguous (h : Settled characters version pairs) (hnames : (pairs.map Pair.name).Nodup) :
    Unambiguous characters version pairs := by
  obtain ⟨m, hload, hports⟩ := h
  have hread : ∀ p ∈ pairs, (pairSettings characters version none p).isSome := fun p hp =>
    isSome_of_accepted (load_eq_ok_iff.1 (hload pairs (.refl _))).1 hp
  have hnone : ∀ p ∈ pairs, ∀ s ∈ made characters version (protocolOf characters pairs) p, IsPortKey p.name →
      m (slot version s.field) = none :=
    fun p _ s hs hport => hload.eq_none hnames ((slot_mem_portFields hs).2 hport)
  have hno : ∀ p n, ¬GivesPort characters pairs p n := fun p n hgives => by
    have hsome := hports p n hgives
    rw [hload.eq_none hnames (slot_mem_portFields_iff.2 (portField_mem _ _))] at hsome
    exact nomatch hsome
  have hagree := fun p hp q hq s hs t ht => hload.agree (p := p) (q := q) (s := s) (t := t) hnames hp hq hs ht
  rcases exists_protocol_first characters hnames with hproto | ⟨q, rest, hq, hperm, hrest⟩
  · refine ⟨fun p hp => hproto ▸ hread p hp, hagree, fun p _ hport s hs => ?_, hno⟩
    rw [hproto, made_none hport] at hs
    exact absurd hs List.not_mem_nil
  · have haccepted := (load_eq_ok_iff.1 (hload (q :: rest) hperm)).1
    refine ⟨fun p hp => read_of_protocol_first hnames hq hperm hrest haccepted hp, hagree,
      fun p hp hport s hs => ?_, hno⟩
    have hne := loaded_protocol_first_ne hnames hq hperm hrest hp hport hs
    rw [← hload.keeps_loaded hnames hperm]
    by_contra hkeeps
    refine hne ?_
    rw [← hnone p hp s hs hport, hload.eq_build hperm]
    exact (if_pos (Bool.eq_true_of_not_eq_false hkeeps)).symm

/-- When pairs that are accepted are settled. -/
theorem settled_iff (hnames : (pairs.map Pair.name).Nodup)
    (haccepted : ∃ m, loadOFMatchFromString characters version (Pair.textOf pairs) = .ok m) :
    Settled characters version pairs ↔ Unambiguous characters version pairs := by
  obtain ⟨m, hm⟩ := haccepted
  exact ⟨fun h => h.unambiguous hnames, fun h => h.settled hnames (load_eq_ok_iff.1 hm).1⟩

/-- The protocol TCP. -/
def tcpPair : Pair :=
  ⟨"nw_proto".toList, "6".toList, by simp, by simp [isSeparator], by simp [isSeparator]⟩

/-- The packets of TCP to a network. -/
def toNetwork : List Pair :=
  [⟨"dl_type".toList, "0x800".toList, by simp, by simp [isSeparator], by simp [isSeparator]⟩,
    ⟨"nw_dst".toList, "10.0.0.0/8".toList, by simp, by simp [isSeparator], by simp [isSeparator]⟩, tcpPair]

theorem accepted_toNetwork : Accepted .ascii .of13 none toNetwork :=
  ⟨by decide +kernel, by decide +kernel, by decide +kernel, trivial⟩

theorem unambiguous_toNetwork : Unambiguous .ascii .of13 toNetwork := by
  have hports : ∀ p ∈ toNetwork, ¬IsPortKey p.name := by decide +kernel
  refine ⟨?_, ?_, fun p hp hport => absurd hport (hports p hp), fun p n h => hports p h.1 h.2.1⟩
  · decide +kernel
  · decide +kernel

theorem settled_toNetwork : Settled .ascii .of13 toNetwork := by
  have hnames : (toNetwork.map Pair.name).Nodup := by decide +kernel
  have haccepted : ∃ m, loadOFMatchFromString .ascii .of13 (Pair.textOf toNetwork) = .ok m :=
    ⟨_, load_eq_ok_iff.2 ⟨accepted_toNetwork, rfl⟩⟩
  exact (settled_iff hnames haccepted).2 unambiguous_toNetwork

/-- The port of a destination. -/
def portPair : Pair :=
  ⟨"tp_dst".toList, "80".toList, by simp, by simp [isSeparator], by simp [isSeparator]⟩

theorem accepted_portPair : Accepted .ascii .of13 none [portPair, tcpPair] :=
  ⟨by decide +kernel, by decide +kernel, trivial⟩

/-- A port in front of its protocol is lost. -/
theorem not_settled : ¬∀ pairs : List Pair, (pairs.map Pair.name).Nodup →
    (∃ m, loadOFMatchFromString .ascii .of13 (Pair.textOf pairs) = .ok m) → Settled .ascii .of13 pairs := by
  intro hall
  have hnames : ([portPair, tcpPair].map Pair.name).Nodup := by decide +kernel
  have hsettled := hall [portPair, tcpPair] hnames ⟨_, load_eq_ok_iff.2 ⟨accepted_portPair, rfl⟩⟩
  refine (hsettled.unambiguous hnames).noNumber portPair 80 ⟨List.mem_cons_self, ?_, .inl ?_, ?_, ?_, ?_⟩
  all_goals decide +kernel

end OFProtocol

end Torpedo
