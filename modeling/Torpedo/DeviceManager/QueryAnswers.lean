import Torpedo.DeviceManager.Queries

/-!
# What queries answer

In a store that a run reaches there is no index but the one for the MAC address and the VLAN. The
answer of `queryDevices` is compared with the filter over all devices: they differ by the devices
whose first attachment point does not match while a later one does, by the untagged devices that a
scan finds for VLAN -1, and by the exception for an id without a device.
-/

namespace Torpedo

/-! ## The filter -/

namespace Query

variable (q : Query)

/-- The entity has the MAC address, the VLAN and the IPv4 address that are asked for. -/
def MatchesEntity (e : Entity) : Prop :=
  (∀ mac, q.macAddress = some mac → e.macAddress = mac) ∧
    (∀ vlan, q.vlan = some vlan → e.vlan = some vlan) ∧
    ∀ ip, q.ipv4Address = some ip → e.ipv4Address = some ip

/-- The switch port has the DPID and the port number that are asked for. -/
def MatchesPort (sp : SwitchPort) : Prop :=
  (∀ dpid, q.switchDPID = some dpid → sp.switchDPID = dpid) ∧
    ∀ port, q.switchPort = some port → sp.port = port

/-- Neither a DPID nor a port is asked for. -/
def AnyPort : Prop := q.switchDPID = none ∧ q.switchPort = none

/-- The device has a matching entity and a matching attachment point. -/
def Selects (d : Device) (sps : List SwitchPort) : Prop :=
  (∃ e ∈ d.entities, q.MatchesEntity e) ∧ (q.AnyPort ∨ ∃ sp ∈ sps, q.MatchesPort sp)

/-- The first of the attachment points matches. -/
def MatchesFirst (sps : List SwitchPort) : Prop :=
  q.AnyPort ∨ ∃ sp, sps.head? = some sp ∧ q.MatchesPort sp

/-- The query but for the VLAN. -/
def withoutVlan : Query := { q with vlan := none }

end Query

/-- The answer is each device that the query selects, once, and no other device. -/
def Devices.Answers (ord : HashOrder) (topology : TopologyService) (s : Devices) (q : Query) : Prop :=
  ∃ ds : List Device, s.queryDevices ord topology q = some (ds.map some) ∧ ds.Nodup ∧
    ∀ d, d ∈ ds ↔ (∃ id, s.deviceIdToDeviceMap.get id = some d) ∧
      q.Selects d (d.getAttachmentPoints ord topology s.suppressedAPs)

/-! ## The iterator -/

section Iterator

variable {α : Type} {f : α → Option Bool}

theorem filterIterator_eq (vs : List α) (h : ∀ v ∈ vs, f v ≠ none) :
    filterIterator f vs = some (vs.filter fun v => f v = some true) := by
  induction vs with
  | nil => rfl
  | cons v vs ih =>
    have ih := ih fun w hw => h w (List.mem_cons_of_mem _ hw)
    unfold filterIterator
    cases hv : f v with
    | none => exact absurd hv (h v List.mem_cons_self)
    | some b => cases b <;> simp [hv, ih]

theorem filterIterator_eq_none {vs : List α} {v : α} (hv : v ∈ vs) (h : f v = none) :
    filterIterator f vs = none := by
  induction vs with
  | nil => cases hv
  | cons w vs ih =>
    unfold filterIterator
    rcases List.mem_cons.1 hv with rfl | hv
    · rw [h]
    · cases f w with
      | none => rfl
      | some b => cases b <;> simp [ih hv]

end Iterator

namespace Devices

variable {ord : HashOrder} {ports : PortOrder} {topology : TopologyService} {s : Devices} {q : Query}

/-! ## Indices -/

theorem filed_eq {index : SetMap IndexedEntity ℕ} (h : s.multiIndices.get keyFields = some index)
    (k : IndexedEntity) : s.filed k = (index.get k).getD [] := by
  unfold filed
  rw [h]
  rfl

theorem mem_filed {index : SetMap IndexedEntity ℕ} (h : s.multiIndices.get keyFields = some index)
    {k : IndexedEntity} {id : ℕ} : id ∈ s.filed k ↔ SetMap.Has index k id := by
  rw [filed_eq h]
  unfold SetMap.Has
  cases index.get k <;> simp

theorem fields_eq (h : s.registry.Inv ports) {fields : Finset DeviceField}
    {index : SetMap IndexedEntity ℕ} (hf : s.multiIndices.get fields = some index) :
    fields = keyFields := by
  refine h.kinds fields ?_
  show HashMap.containsKey s.multiIndices fields = true
  unfold HashMap.containsKey
  rw [hf]
  rfl

theorem queryClassByEntity_ipv4 (h : s.registry.Inv ports) (e : Entity) :
    s.queryClassByEntity ord {.ipv4} e = [] := by
  unfold queryClassByEntity
  cases hf : s.multiIndices.get {.ipv4} with
  | none => rfl
  | some index => exact absurd (fields_eq h hf) (by decide)

/-! ## The tests of the iterator -/

theorem ipv4Values_eq (h : s.registry.Inv ports) (d : Device) (es : List Entity) :
    d.ipv4Values ord s es = some (es.filterMap (·.ipv4Address)) := by
  induction es with
  | nil => rfl
  | cons e es ih =>
    unfold Device.ipv4Values
    rw [queryClassByEntity_ipv4 h, ih]
    unfold Device.validIP
    cases he : e.ipv4Address <;> simp [he]

theorem binarySearch_getVlanId {d : Device} {vlan : Int16} :
    0 ≤ binarySearch compare d.getVlanId vlan ↔ ∃ e ∈ d.entities, e.vlan.getD (-1) = vlan := by
  unfold Device.getVlanId
  split
  · rename_i e he
    rw [binarySearch_nonneg_iff (List.pairwise_singleton ..)]
    simp [he]
  · rw [binarySearch_treeSet, List.mem_map]

theorem any_ne_iff {β : Type} [DecidableEq β] {o : Option β} {b : β} :
    (o.any fun a => a ≠ b) = false ↔ ∀ a, o = some a → b = a := by
  cases o with
  | none => simp
  | some a => simp [@eq_comm _ b a]

theorem matchesAttachmentPoint_iff {sps : List SwitchPort} :
    DeviceIterator.matchesAttachmentPoint q sps = true ↔
      ∃ sp, sps.head? = some sp ∧ q.MatchesPort sp := by
  unfold DeviceIterator.matchesAttachmentPoint Query.MatchesPort
  cases sps with
  | nil => simp
  | cons sp sps =>
    simp only [List.head?_cons, Option.some.injEq, exists_eq_left', ← any_ne_iff]
    cases q.switchDPID.any (fun dpid => dpid ≠ sp.switchDPID) <;>
      cases q.switchPort.any (fun port => port ≠ sp.port) <;> simp

/-- The entity passes the tests of the iterator: an untagged entity has VLAN -1. -/
def PassesEntity (q : Query) (e : Entity) : Prop :=
  q.withoutVlan.MatchesEntity e ∧ ∀ vlan, q.vlan = some vlan → e.vlan.getD (-1) = vlan

section Host

variable {d : Device} {k : IndexedEntity}

/-- As all entities of a device have its MAC address and VLAN, the tests may be made one by one. -/
theorem exists_passesEntity (hwf : d.WellFormed ports) (hk : d.HasKey k) :
    (∃ e ∈ d.entities, PassesEntity q e) ↔
      (∀ mac, q.macAddress = some mac → k.macAddress = mac) ∧
        (∀ vlan, q.vlan = some vlan → k.vlan.getD (-1) = vlan) ∧
        ∀ ip, q.ipv4Address = some ip → ∃ e ∈ d.entities, e.ipv4Address = some ip := by
  have hkey : ∀ e ∈ d.entities, e.macAddress = k.macAddress ∧ e.vlan = k.vlan := by
    intro e he
    rw [← hwf.indexed hk he]
    exact ⟨rfl, rfl⟩
  unfold PassesEntity Query.MatchesEntity Query.withoutVlan
  constructor
  · rintro ⟨e, he, ⟨hmac, -, hip⟩, hvlan⟩
    obtain ⟨hm, hv⟩ := hkey e he
    exact ⟨hm ▸ hmac, hv ▸ hvlan, fun ip h => ⟨e, he, hip ip h⟩⟩
  · rintro ⟨hmac, hvlan, hip⟩
    -- an entity with the IPv4 address, if one is asked for
    obtain ⟨e, he, hip⟩ : ∃ e ∈ d.entities, ∀ ip, q.ipv4Address = some ip → e.ipv4Address = some ip := by
      cases hq : q.ipv4Address with
      | none =>
        obtain ⟨e, he⟩ := List.exists_mem_of_ne_nil _ hwf.nonempty
        exact ⟨e, he, fun _ h => nomatch h⟩
      | some ip =>
        obtain ⟨e, he, heq⟩ := hip ip hq
        refine ⟨e, he, fun ip' h => ?_⟩
        cases h
        exact heq
    obtain ⟨hm, hv⟩ := hkey e he
    exact ⟨e, he, ⟨hm ▸ hmac, (fun _ h => nomatch h), hip⟩, hv ▸ hvlan⟩

theorem mac_test (hwf : d.WellFormed ports) (hk : d.HasKey k) :
    (q.macAddress.any fun mac => some mac ≠ d.getMACAddress) = false ↔
      ∀ mac, q.macAddress = some mac → k.macAddress = mac := by
  have hmac : d.getMACAddress = some k.macAddress := by
    unfold Device.getMACAddress
    cases hes : d.entities with
    | nil => exact absurd hes hwf.nonempty
    | cons e es =>
      rw [← hwf.indexed hk (hes ▸ List.mem_cons_self)]
      rfl
  rw [hmac, ← any_ne_iff]
  simp only [ne_eq, Option.some.injEq]

theorem vlan_test (hwf : d.WellFormed ports) (hk : d.HasKey k) :
    (q.vlan.any fun vlan => binarySearch compare d.getVlanId vlan < 0) = false ↔
      ∀ vlan, q.vlan = some vlan → k.vlan.getD (-1) = vlan := by
  have hvlan : ∀ vlan, 0 ≤ binarySearch compare d.getVlanId vlan ↔ k.vlan.getD (-1) = vlan := by
    intro vlan
    obtain ⟨o, ho, hok⟩ := hk
    rw [binarySearch_getVlanId]
    constructor
    · rintro ⟨e, he, rfl⟩
      rw [← hok, ← hwf.same e he o ho]
      rfl
    · rintro rfl
      exact ⟨o, ho, by rw [← hok]; rfl⟩
  cases q.vlan with
  | none => simp
  | some vlan => simp [← hvlan]

theorem ipv4_test (h : s.registry.Inv ports) (d : Device) :
    ∃ b, DeviceIterator.matchesIPv4 ord s q d = some b ∧
      (b = true ↔ ∀ ip, q.ipv4Address = some ip → ∃ e ∈ d.entities, e.ipv4Address = some ip) := by
  unfold DeviceIterator.matchesIPv4 Device.getIPv4Addresses
  rw [ipv4Values_eq h]
  cases q.ipv4Address with
  | none => exact ⟨true, rfl, by simp⟩
  | some ip =>
    refine ⟨_, rfl, ?_⟩
    rw [decide_eq_true_iff, not_lt, binarySearch_treeSet, List.mem_filterMap]
    simp

theorem port_test (sps : List SwitchPort) :
    ∃ b, (if q.switchDPID.isSome || q.switchPort.isSome then
        some (DeviceIterator.matchesAttachmentPoint q sps) else some true) = some b ∧
      (b = true ↔ q.MatchesFirst sps) := by
  unfold Query.MatchesFirst Query.AnyPort
  rw [← matchesAttachmentPoint_iff]
  cases q.switchDPID <;> cases q.switchPort <;> simp

variable (ord topology q) in
/-- The tests of the iterator on a device of the store. -/
theorem matchesDevice_iff (h : s.registry.Inv ports) {id : ℕ}
    (hd : s.deviceIdToDeviceMap.get id = some d) :
    ∃ b, DeviceIterator.matchesDevice ord topology s q d = some b ∧
      (b = true ↔ (∃ e ∈ d.entities, PassesEntity q e) ∧
        q.MatchesFirst (d.getAttachmentPoints ord topology s.suppressedAPs)) := by
  have hwf := h.wellFormed id d hd
  obtain ⟨k, hk⟩ := hwf.exists_hasKey
  rw [exists_passesEntity hwf hk, ← mac_test hwf hk, ← vlan_test hwf hk]
  unfold DeviceIterator.matchesDevice
  cases q.macAddress.any fun mac => some mac ≠ d.getMACAddress with
  | true => exact ⟨false, rfl, by simp⟩
  | false =>
  cases q.vlan.any fun vlan => binarySearch compare d.getVlanId vlan < 0 with
  | true => exact ⟨false, rfl, by simp⟩
  | false =>
    simp only [Bool.false_eq_true, if_false, true_and]
    obtain ⟨b, hb, hip⟩ := ipv4_test (s := s) h d
    rw [hb, ← hip]
    cases b with
    | false => exact ⟨false, rfl, by simp⟩
    | true =>
      obtain ⟨c, hc, hport⟩ := port_test (q := q) (d.getAttachmentPoints ord topology s.suppressedAPs)
      exact ⟨c, hc, by rw [hport]; simp⟩

end Host

/-! ## The answer -/

section Answer

/-- Every id in the index under the fields that are asked for has a device. -/
def IndexedIds (s : Devices) (q : Query) : Prop :=
  ∀ index, s.multiIndices.get q.getEntityKeys = some index →
    ∀ id, SetMap.Has index q.entity.indexed id → ∃ d, s.deviceIdToDeviceMap.get id = some d

/-- The index is asked for the MAC address and the VLAN alone. -/
theorem eq_of_getEntityKeys (h : q.getEntityKeys = keyFields) :
    ∃ mac vlan, q = ⟨some mac, some vlan, none, none, none⟩ := by
  have hkeys : ∀ mac vlan ip dpid port : Bool,
      (if mac then {.mac} else ∅) ∪ (if vlan then {.vlan} else ∅) ∪ (if ip then {.ipv4} else ∅) ∪
        (if dpid then {.switch} else ∅) ∪ (if port then {.port} else ∅) = keyFields →
      mac = true ∧ vlan = true ∧ ip = false ∧ dpid = false ∧ port = false := by decide
  obtain ⟨mac, vlan, ip, dpid, port⟩ := q
  obtain ⟨hmac, hvlan, hip, hdpid, hport⟩ := hkeys _ _ _ _ _ h
  have hnone : ∀ {α : Type} {o : Option α}, o.isSome = false → o = none := by
    rintro α (_ | a) ho
    · rfl
    · cases ho
  obtain ⟨mac, rfl⟩ := Option.isSome_iff_exists.1 hmac
  obtain ⟨vlan, rfl⟩ := Option.isSome_iff_exists.1 hvlan
  cases hnone hip
  cases hnone hdpid
  cases hnone hport
  exact ⟨mac, vlan, rfl⟩

theorem nodup_deviceValues (h : s.registry.Inv ports) : (s.deviceValues ord).Nodup :=
  .of_map _ (deviceValues_spec ord h).2

variable (ord topology) in
/-- A scan answers with the devices that pass the tests. -/
theorem queryDevices_scan (h : s.registry.Inv ports)
    (hq : s.multiIndices.get q.getEntityKeys = none) :
    ∃ ds : List Device, s.queryDevices ord topology q = some (ds.map some) ∧ ds.Nodup ∧
      ∀ d, d ∈ ds ↔ (∃ id, s.deviceIdToDeviceMap.get id = some d) ∧
        (∃ e ∈ d.entities, PassesEntity q e) ∧
        q.MatchesFirst (d.getAttachmentPoints ord topology s.suppressedAPs) := by
  refine ⟨(s.deviceValues ord).filter fun d =>
    DeviceIterator.matchesDevice ord topology s q d = some true, ?_, ?_, ?_⟩
  · unfold queryDevices
    rw [hq]
    dsimp only
    rw [filterIterator_eq, List.filter_map]
    · rfl
    · intro v hv
      obtain ⟨d, hd, rfl⟩ := List.mem_map.1 hv
      obtain ⟨id, hd⟩ := mem_deviceValues.1 hd
      obtain ⟨b, hb, -⟩ := matchesDevice_iff ord topology q h hd
      show DeviceIterator.matchesDevice ord topology s q d ≠ none
      rw [hb]
      exact Option.some_ne_none b
  · exact (nodup_deviceValues h).filter _
  · intro d
    rw [List.mem_filter, mem_deviceValues, decide_eq_true_iff]
    refine and_congr_right ?_
    rintro ⟨id, hd⟩
    obtain ⟨b, hb, hiff⟩ := matchesDevice_iff ord topology q h hd
    rw [hb, Option.some.injEq, hiff]

theorem map_eq_map_some {α β : Type} {f : α → Option β} {xs : List α}
    (h : ∀ x ∈ xs, ∃ y, f x = some y) : xs.map f = (xs.filterMap f).map some := by
  induction xs with
  | nil => rfl
  | cons x xs ih =>
    obtain ⟨y, hy⟩ := h x List.mem_cons_self
    rw [List.map_cons, ih fun x' hx' => h x' (List.mem_cons_of_mem _ hx'), List.filterMap_cons, hy]
    rfl

variable (ord topology) in
/-- The answer from the index. -/
theorem answers_index (h : s.registry.Inv ports) {index : SetMap IndexedEntity ℕ}
    (hq : s.multiIndices.get q.getEntityKeys = some index) :
    s.Answers ord topology q ↔ IndexedIds s q := by
  have hkeys := fields_eq h hq
  obtain ⟨mac, vlan, rfl⟩ := eq_of_getEntityKeys hkeys
  have hindex : s.multiIndices.get keyFields = some index := hkeys ▸ hq
  have hquery : s.queryDevices ord topology ⟨some mac, some vlan, none, none, none⟩ =
      filterIterator (DeviceIterator.matchesValue ord topology s ⟨some mac, some vlan, none, none, none⟩)
        ((ord.iter (s.filed ⟨mac, some vlan⟩)).map s.deviceIdToDeviceMap.get) := by
    unfold queryDevices
    rw [hq, filed_eq hindex]
    rfl
  constructor
  · rintro ⟨ds, hds, -, -⟩ index' hindex' id hid
    rw [hq] at hindex'
    cases hindex'
    by_contra hnone
    have hnone : s.deviceIdToDeviceMap.get id = none :=
      Option.eq_none_iff_forall_ne_some.2 fun d hd => hnone ⟨d, hd⟩
    -- the iterator stumbles over the `null` of the id
    have hmem : (none : Option Device) ∈
        (ord.iter (s.filed ⟨mac, some vlan⟩)).map s.deviceIdToDeviceMap.get := by
      refine List.mem_map.2 ⟨id, (ord.mem_iter).2 ((mem_filed hindex).2 hid), hnone⟩
    rw [hquery, filterIterator_eq_none hmem] at hds
    · cases hds
    · unfold DeviceIterator.matchesValue
      rw [hkeys]
      exact if_neg (by decide)
  · intro hids
    have hdev : ∀ id ∈ ord.iter (s.filed ⟨mac, some vlan⟩), ∃ d,
        s.deviceIdToDeviceMap.get id = some d ∧ d.HasKey ⟨mac, some vlan⟩ := by
      intro id hid
      rw [HashOrder.mem_iter] at hid
      obtain ⟨d, hd⟩ := hids index hq id ((mem_filed hindex).1 hid)
      exact ⟨d, hd, h.owner _ id d (.inr hid) hd⟩
    -- all candidates pass
    have hpass : ∀ {id d}, s.deviceIdToDeviceMap.get id = some d → d.HasKey ⟨mac, some vlan⟩ →
        DeviceIterator.matchesDevice ord topology s ⟨some mac, some vlan, none, none, none⟩ d =
          some true := by
      intro id d hd hk
      obtain ⟨b, hb, hiff⟩ := matchesDevice_iff ord topology ⟨some mac, some vlan, none, none, none⟩ h hd
      rw [hb, hiff.2]
      refine ⟨(exists_passesEntity (h.wellFormed id d hd) hk).2 ⟨?_, ?_, ?_⟩, .inl ⟨rfl, rfl⟩⟩
      · rintro _ ⟨⟩; rfl
      · rintro _ ⟨⟩; rfl
      · exact fun _ hip => nomatch hip
    refine ⟨(ord.iter (s.filed ⟨mac, some vlan⟩)).filterMap s.deviceIdToDeviceMap.get, ?_, ?_, ?_⟩
    · rw [hquery, map_eq_map_some fun id hid => (hdev id hid).imp fun _ => And.left,
        filterIterator_eq]
      · refine congrArg some (List.filter_eq_self.2 ?_)
        intro v hv
        obtain ⟨d, hd, rfl⟩ := List.mem_map.1 hv
        obtain ⟨id, hid, hd⟩ := List.mem_filterMap.1 hd
        obtain ⟨d', hd', hk⟩ := hdev id hid
        cases hd.symm.trans hd'
        exact decide_eq_true (hpass hd hk)
      · intro v hv
        obtain ⟨d, hd, rfl⟩ := List.mem_map.1 hv
        obtain ⟨id, hid, hd⟩ := List.mem_filterMap.1 hd
        obtain ⟨d', hd', hk⟩ := hdev id hid
        cases hd.symm.trans hd'
        show DeviceIterator.matchesDevice ord topology s _ d ≠ none
        rw [hpass hd hk]
        exact Option.some_ne_none _
    · refine List.Nodup.filterMap ?_ ((ord.nodup_iter).2 (h.nodup _))
      intro id id' d hd hd'
      exact (h.key id d hd).symm.trans (h.key id' d hd')
    · intro d
      rw [List.mem_filterMap]
      constructor
      · rintro ⟨id, hid, hd⟩
        obtain ⟨d', hd', e, he, hk⟩ := hdev id hid
        cases hd.symm.trans hd'
        refine ⟨⟨id, hd⟩, ⟨e, he, ?_⟩, .inl ⟨rfl, rfl⟩⟩
        refine ⟨?_, ?_, fun _ hip => nomatch hip⟩
        · rintro _ ⟨⟩; exact congrArg IndexedEntity.macAddress hk
        · rintro _ ⟨⟩; exact congrArg IndexedEntity.vlan hk
      · rintro ⟨⟨id, hd⟩, ⟨e, he, hmac, hvlan, -⟩, -⟩
        refine ⟨id, ?_, hd⟩
        rw [HashOrder.mem_iter]
        refine h.filed id d _ hd ⟨e, he, ?_⟩
        unfold Entity.indexed
        rw [hmac mac rfl, hvlan vlan rfl]

end Answer

/-! ## Sound indices -/

/-- The ids in the indices have devices of the right host, all devices are found, and no lookup or
query yields `null` or a device of another host. -/
structure IndicesSound (ord : HashOrder) (s : Devices) : Prop where
  primary : ∀ k id, s.primaryIndex.get k = some id →
    ∃ d, s.deviceIdToDeviceMap.get id = some d ∧ d.HasKey k
  secondary : ∀ fields index, s.multiIndices.get fields = some index → ∀ k id,
    SetMap.Has index k id → ∃ d, s.deviceIdToDeviceMap.get id = some d ∧ d.HasKey k
  found : ∀ id d, s.deviceIdToDeviceMap.get id = some d → ∀ e ∈ d.entities,
    s.primaryIndex.get e.indexed = some id
  findDevice : ∀ e d, s.findDeviceByEntity e = some d → d.HasKey e.indexed
  queryClass : ∀ fields e, ∀ o ∈ s.queryClassByEntity ord fields e,
    ∃ d, o = some d ∧ d.HasKey e.indexed
  queryDevices : ∀ topology q, ∃ ds : List Device,
    s.queryDevices ord topology q = some (ds.map some) ∧
      ∀ d ∈ ds, ∃ id, s.deviceIdToDeviceMap.get id = some d

/-- The indices are sound if and only if no index refers to a device that is not there. -/
theorem indicesSound_iff_noDangling (h : s.registry.Inv ports) :
    s.IndicesSound ord ↔ s.registry.NoDangling := by
  constructor
  · rintro hs k id (hp | hf)
    · exact (hs.primary k id hp).imp fun _ => And.left
    · obtain ⟨index, hindex⟩ := Option.isSome_iff_exists.1 (h.kindsFiled k id hf)
      exact (hs.secondary _ index hindex k id ((mem_filed hindex).1 hf)).imp fun _ => And.left
  · intro hn
    -- what an index refers to
    have hrefers : ∀ k id, s.registry.Refers k id →
        ∃ d, s.deviceIdToDeviceMap.get id = some d ∧ d.HasKey k := by
      intro k id hr
      obtain ⟨d, hd⟩ := hn k id hr
      exact ⟨d, hd, h.owner k id d hr hd⟩
    have hsecondary : ∀ fields index, s.multiIndices.get fields = some index → ∀ k id,
        SetMap.Has index k id → ∃ d, s.deviceIdToDeviceMap.get id = some d ∧ d.HasKey k := by
      intro fields index hindex k id hid
      cases fields_eq h hindex
      exact hrefers k id (.inr ((mem_filed hindex).2 hid))
    refine ⟨fun k id hp => hrefers k id (.inl hp), hsecondary, ?_, ?_, ?_, ?_⟩
    · exact fun id d hd e he => h.indexed id d _ hd ⟨e, he, rfl⟩
    · intro e d hd
      obtain ⟨id, hp, hd⟩ := Option.bind_eq_some_iff.1 hd
      exact h.owner _ id d (.inl hp) hd
    · intro fields e o ho
      unfold queryClassByEntity at ho
      cases hindex : s.multiIndices.get fields with
      | none =>
        rw [hindex] at ho
        cases ho
      | some index =>
        rw [hindex] at ho
        obtain ⟨id, hid, rfl⟩ := List.mem_map.1 ho
        cases fields_eq h hindex
        unfold queryByEntity at hid
        rw [HashOrder.mem_iter, ← filed_eq hindex] at hid
        exact hrefers _ id (.inr hid)
    · intro topology q
      cases hq : s.multiIndices.get q.getEntityKeys with
      | none =>
        obtain ⟨ds, hds, -, hmem⟩ := queryDevices_scan ord topology h hq
        exact ⟨ds, hds, fun d hd => ((hmem d).1 hd).1⟩
      | some index =>
        obtain ⟨ds, hds, -, hmem⟩ := (answers_index ord topology h hq).2 (by
          intro index' hindex' id hid
          exact (hsecondary _ index' hindex' _ id hid).imp fun _ => And.left)
        exact ⟨ds, hds, fun d hd => ((hmem d).1 hd).1⟩

/-- An operation keeps the registry free of dangling references, unless it updates the attachment
points while some device has no valid one. -/
theorem Step.noDangling {s' : Devices} {op : Op} (hs : Step ord ports s op s')
    (h : s.registry.Inv ports) (hn : s.registry.NoDangling)
    (hop : ∀ topology, op = .updateAttachmentPoints topology → s.AllAttached topology) :
    s'.registry.NoDangling := by
  refine hn.changes h ?_
  cases hs with
  | learnDeviceByEntity topology entity fuel device _ hs => exact changes_of_learnDeviceByEntity h hs
  | cleanupEntities cutoff fuel _ hs => exact changes_of_cleanupEntities h hs
  | updateAttachmentPoints topology => exact (updateAttachmentPoints_spec h).2 (hop topology rfl)
  | deleteDevice topology datapathid => exact deleteDevice_spec h datapathid
  | addSuppressAPs => exact .refl
  | removeSuppressAPs => exact .refl

theorem Run.noDangling {s' : Devices} {ops : List Op} (hr : Run ord ports s ops s')
    (h : s.registry.Inv ports) (hn : s.registry.NoDangling)
    (hops : ∀ pre topology post s₁, ops = pre ++ .updateAttachmentPoints topology :: post →
      Run ord ports s pre s₁ → Run ord ports (s₁.updateAttachmentPoints ord topology) post s' →
      s₁.AllAttached topology) : s'.registry.NoDangling := by
  induction hr with
  | nil => exact hn
  | @cons s s₁ s' op ops hs hr ih =>
    refine ih (h.moves (hs.moves h)) (hs.noDangling h hn ?_) ?_
    · rintro topology rfl
      cases hs
      exact hops [] topology ops s rfl (.nil s) hr
    · rintro pre topology post s₂ rfl hpre hpost
      exact hops (op :: pre) topology post s₂ rfl (.cons hs hpre) hpost

/-- **When the indices are sound.** In all states of a run the indices are sound if and only if
`updateAttachmentPoints` never runs while some device has no valid attachment point. -/
theorem indicesSound_iff (ord : HashOrder) (ports : PortOrder) (ops : List Op) (s' : Devices) :
    (∀ pre post s, ops = pre ++ post → Run ord ports new pre s → Run ord ports s post s' →
      s.IndicesSound ord) ↔
      ∀ pre topology post s, ops = pre ++ .updateAttachmentPoints topology :: post →
        Run ord ports new pre s → Run ord ports (s.updateAttachmentPoints ord topology) post s' →
        s.AllAttached topology := by
  constructor
  · rintro hsound pre topology post s rfl hpre hpost
    have hpre' : Run ord ports new (pre ++ [.updateAttachmentPoints topology])
        (s.updateAttachmentPoints ord topology) :=
      hpre.append (.cons (.updateAttachmentPoints topology) (.nil _))
    have hs := hsound _ post _ (by simp) hpre' hpost
    exact allAttached_of_noDangling hpre.inv ((indicesSound_iff_noDangling hpre'.inv).1 hs)
  · rintro hops pre post s rfl hpre hpost
    refine (indicesSound_iff_noDangling hpre.inv).2 (hpre.noDangling Registry.inv_empty
      Registry.noDangling_empty ?_)
    rintro pre' topology post' s₁ rfl hpre' hpost'
    exact hops pre' topology (post' ++ post) s₁ (by simp) hpre' (hpost'.append hpost)

/-- A host whose port turns out to lead to a switch. -/
def internalPort : Devices :=
  (List.foldlM (exec .insertion .unsigned) new
    [.learnDeviceByEntity (islands []) (.new 7 none none (some 1) (some 1) 0),
      .updateAttachmentPoints (islands [⟨1, 1⟩])]).get (by decide)

/-- The host is gone, and the indices still refer to it. -/
theorem not_indicesSound_internalPort :
    ¬∀ (ord : HashOrder) (ports : PortOrder) (ops : List Op) (s : Devices), Run ord ports new ops s →
      s.IndicesSound ord := by
  intro h
  have hs := h .insertion .unsigned _ internalPort (run_of_exec (Option.some_get _).symm)
  obtain ⟨d, hd, -⟩ := hs.primary ⟨7, none⟩ 0 (by decide)
  have hgone : internalPort.deviceIdToDeviceMap.get 0 = none := by decide
  exact nomatch hd.symm.trans hgone

/-! ## Answers -/

end Devices

end Torpedo
