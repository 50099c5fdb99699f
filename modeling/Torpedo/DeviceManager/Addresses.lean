import Torpedo.DeviceManager.QueryAnswers

/-!
# The addresses of a device

`getIPv4Addresses` is to report an address if no other device has been seen with it later. It asks an index
of the devices by their addresses, which no operation makes, and so meets no other device at all.
-/

namespace Torpedo

namespace Device

variable (ord : HashOrder) (s : Devices) (d : Device) (ip : Int32)

/-- `getIPv4Addresses` reports the address. -/
def Reports : Prop := ∃ ips, d.getIPv4Addresses ord s = some ips ∧ ip ∈ ips

/-- The device has an entity with the address that has been seen no earlier than those of other devices. -/
def OwnsAddress : Prop :=
  ∃ e ∈ d.entities, e.ipv4Address = some ip ∧ ∀ id d', s.deviceIdToDeviceMap.get id = some d' →
    d'.deviceKey ≠ d.deviceKey → ∀ se ∈ d'.entities, se.ipv4Address = some ip →
      se.lastSeenTimestamp ≤ e.lastSeenTimestamp

end Device

namespace Devices

variable {ord : HashOrder} {ports : PortOrder} {s : Devices} {d : Device} {ip : Int32}

/-- Every address of a device is reported. -/
theorem reports_iff (h : s.registry.Inv ports) :
    d.Reports ord s ip ↔ ∃ e ∈ d.entities, e.ipv4Address = some ip := by
  unfold Device.Reports Device.getIPv4Addresses
  rw [ipv4Values_eq h]
  simp only [Option.map_some, Option.some.injEq, exists_eq_left', mem_treeSet, List.mem_filterMap]

/-- In every store that a run reaches the addresses of a device are reported as they should be if and only
if none of them has been seen later at another device. -/
theorem reports_iff_ownsAddress_iff (ord : HashOrder) (ports : PortOrder) (ops : List Op) (s : Devices)
    (hr : Run ord ports new ops s) {id : ℕ} {d : Device} (hd : s.deviceIdToDeviceMap.get id = some d) :
    (∀ ip, d.Reports ord s ip ↔ d.OwnsAddress s ip) ↔
      ∀ e ∈ d.entities, ∀ ip, e.ipv4Address = some ip → ∃ o ∈ d.entities, o.ipv4Address = some ip ∧
        ∀ id' d', s.deviceIdToDeviceMap.get id' = some d' → id' ≠ id → ∀ se ∈ d'.entities,
          se.ipv4Address = some ip → se.lastSeenTimestamp ≤ o.lastSeenTimestamp := by
  have hkey : ∀ {i : ℕ} {d' : Device}, s.deviceIdToDeviceMap.get i = some d' → d'.deviceKey = i :=
    fun h => hr.inv.key _ _ h
  have howns : ∀ ip, d.OwnsAddress s ip ↔ ∃ o ∈ d.entities, o.ipv4Address = some ip ∧
      ∀ id' d', s.deviceIdToDeviceMap.get id' = some d' → id' ≠ id → ∀ se ∈ d'.entities,
        se.ipv4Address = some ip → se.lastSeenTimestamp ≤ o.lastSeenTimestamp := by
    intro ip
    unfold Device.OwnsAddress
    simp only [hkey hd]
    refine exists_congr fun o => and_congr_right fun _ => and_congr_right fun _ => ?_
    refine forall_congr' fun i => forall_congr' fun d' => forall_congr' fun hd' => ?_
    rw [hkey hd']
  simp only [reports_iff hr.inv, howns]
  constructor
  · intro h e he ip hip
    exact (h ip).1 ⟨e, he, hip⟩
  · intro h ip
    constructor
    · rintro ⟨e, he, hip⟩
      exact h e he ip hip
    · rintro ⟨o, ho, hip, -⟩
      exact ⟨o, ho, hip⟩

/-- Two hosts, the second of which has been seen with the address of the first, a second later. -/
def oneAddress : Devices :=
  (List.foldlM (exec .insertion .unsigned) new
    [.learnDeviceByEntity (islands []) (.new 7 none (some 10) (some 1) (some 1) 0),
      .learnDeviceByEntity (islands []) (.new 8 none (some 10) (some 2) (some 1) 1000)]).get (by decide)

theorem reports_iff_ownsAddress_oneAddress :
    (∀ ip, ((oneAddress.deviceIdToDeviceMap.get 1).get (by decide)).Reports .insertion oneAddress ip ↔
        ((oneAddress.deviceIdToDeviceMap.get 1).get (by decide)).OwnsAddress oneAddress ip) ↔
      ∀ e ∈ ((oneAddress.deviceIdToDeviceMap.get 1).get (by decide)).entities, ∀ ip,
        e.ipv4Address = some ip →
        ∃ o ∈ ((oneAddress.deviceIdToDeviceMap.get 1).get (by decide)).entities, o.ipv4Address = some ip ∧
          ∀ id' d', oneAddress.deviceIdToDeviceMap.get id' = some d' → id' ≠ 1 → ∀ se ∈ d'.entities,
            se.ipv4Address = some ip → se.lastSeenTimestamp ≤ o.lastSeenTimestamp :=
  reports_iff_ownsAddress_iff .insertion .unsigned _ oneAddress (run_of_exec (Option.some_get _).symm)
    (Option.some_get _).symm

/-- The first host is still said to have the address. -/
theorem not_reports_iff_ownsAddress :
    ¬∀ (ord : HashOrder) (ports : PortOrder) (ops : List Op) (s : Devices), Run ord ports new ops s →
      ∀ id d, s.deviceIdToDeviceMap.get id = some d → ∀ ip, d.Reports ord s ip ↔ d.OwnsAddress s ip := by
  intro h
  have hrun : Run .insertion .unsigned new _ oneAddress := run_of_exec (Option.some_get _).symm
  obtain ⟨d, hd, hentities⟩ : ∃ d, oneAddress.deviceIdToDeviceMap.get 0 = some d ∧
      d.deviceKey = 0 ∧ (∃ e ∈ d.entities, e.ipv4Address = some 10) ∧
        ∀ e ∈ d.entities, e.lastSeenTimestamp = 0 :=
    ⟨_, (Option.some_get (by decide)).symm, by decide, by decide, by decide⟩
  obtain ⟨d', hd', hkey', hentities'⟩ : ∃ d', oneAddress.deviceIdToDeviceMap.get 1 = some d' ∧
      d'.deviceKey = 1 ∧ ∃ se ∈ d'.entities, se.ipv4Address = some 10 ∧ se.lastSeenTimestamp = 1000 :=
    ⟨_, (Option.some_get (by decide)).symm, by decide, by decide⟩
  obtain ⟨hkey, haddress, hseen⟩ := hentities
  obtain ⟨se, hse, hip', hlate⟩ := hentities'
  obtain ⟨e, he, -, hlast⟩ := (h _ _ _ _ hrun 0 d hd 10).1 ((reports_iff hrun.inv).2 haddress)
  have hle := hlast 1 d' hd' (by rw [hkey, hkey']; decide) se hse hip'
  rw [hseen e he, hlate] at hle
  exact absurd hle (by decide)

end Devices

end Torpedo
