import Torpedo.TunnelManager.Node

/-!
# VLANs of a node

What taking and releasing a VLAN does to the maps of a node. The VLANs stay accounted for when a network that
is not mapped takes one, and when a network releases the one that it has.
-/

namespace Torpedo

namespace NodeDefinition

variable {node : NodeDefinition} {network : NetworkDefinition} {v : ℤ} {rest : List ℤ}

/-! ## Taking and releasing -/

/-- The node after it has given a VLAN to a network. -/
def taken (network : NetworkDefinition) (v : ℤ) (rest : List ℤ) (node : NodeDefinition) : NodeDefinition :=
  { node with
    availableLocalVlans := rest
    usedLocalVNetsByVlanid := some ((node.usedLocalVNetsByVlanid.getD ∅).put v.repr network)
    usedLocalVNetsByGuid := some ((node.usedLocalVNetsByGuid.getD ∅).put network.netId network)
    localVNetidToVlanid := some ((node.localVNetidToVlanid.getD ∅).put network.netId v.repr) }

/-- The node after a network has given its VLAN back. -/
def released (v : ℤ) (netId : String) (node : NodeDefinition) : NodeDefinition :=
  { node with
    availableLocalVlans := node.availableLocalVlans ++ [v]
    usedLocalVNetsByVlanid := node.usedLocalVNetsByVlanid.map (·.remove v.repr)
    usedLocalVNetsByGuid := node.usedLocalVNetsByGuid.map (·.remove netId)
    localVNetidToVlanid := node.localVNetidToVlanid.map (·.remove netId) }

theorem takeVlan_nil (h : node.availableLocalVlans = []) (netId : Option String)
    (network : Option NetworkDefinition) : takeVlan netId network node = (.error .exception, node) := by
  unfold takeVlan
  simp [h]
  cases node
  cases h
  rfl

theorem takeVlan_cons (h : node.availableLocalVlans.mergeSort (· ≤ ·) = v :: rest) (network : NetworkDefinition) :
    takeVlan (some network.netId) (some network) node = (.ok v.repr, node.taken network v rest) := by
  unfold takeVlan
  simp [h]
  rfl

theorem takeVlan_unknown (h : node.availableLocalVlans.mergeSort (· ≤ ·) = v :: rest) (netId : Option String) :
    takeVlan netId none node = (.error .exception, { node with
      availableLocalVlans := rest
      usedLocalVNetsByVlanid := some (node.usedLocalVNetsByVlanid.getD ∅) }) := by
  unfold takeVlan
  simp [h]

/-! ## Views of the changed node -/

theorem networkOf_taken : (node.taken network v rest).networkOf =
    Function.update node.networkOf v.repr (some network) := by
  funext vlanId
  unfold networkOf taken
  rw [Option.bind_some, HashMap.get_put_eq]
  cases node.usedLocalVNetsByVlanid <;> rfl

theorem network_taken : (node.taken network v rest).network =
    Function.update node.network network.netId (some network) := by
  funext netId
  unfold NodeDefinition.network taken
  rw [Option.bind_some, HashMap.get_put_eq]
  cases node.usedLocalVNetsByGuid <;> rfl

theorem vlanOf_taken : (node.taken network v rest).vlanOf =
    Function.update node.vlanOf network.netId (some v.repr) := by
  funext netId
  unfold vlanOf taken
  rw [Option.bind_some, HashMap.get_put_eq]
  cases node.localVNetidToVlanid <;> rfl

theorem bind_get_remove {κ ν : Type} [DecidableEq κ] (m : Option (HashMap κ ν)) (k : κ) :
    (fun k' => (m.map (·.remove k)).bind (·.get k')) = Function.update (fun k' => m.bind (·.get k')) k none := by
  cases m with
  | none =>
    funext k'
    rw [Function.update_apply]
    split_ifs <;> rfl
  | some m => exact HashMap.get_remove_eq m k

theorem networkOf_released (netId : String) : (node.released v netId).networkOf =
    Function.update node.networkOf v.repr none := bind_get_remove _ _

theorem network_released (netId : String) : (node.released v netId).network =
    Function.update node.network netId none := bind_get_remove _ _

theorem vlanOf_released (netId : String) : (node.released v netId).vlanOf =
    Function.update node.vlanOf netId none := bind_get_remove _ _

theorem tags_taken : (node.taken network v rest).tags =
    node.tags.lend (rest.map Int.repr) v.repr network.netId := by
  unfold tags Tags.lend
  rw [networkOf_taken, vlanOf_taken]
  congr 1
  funext vlanId
  rw [Function.update_apply, Function.update_apply]
  split_ifs <;> rfl

theorem tags_released (netId : String) : (node.released v netId).tags = node.tags.giveBack v.repr netId := by
  unfold tags Tags.giveBack
  rw [networkOf_released, vlanOf_released]
  congr 1
  · exact List.map_append
  · funext vlanId
    rw [Function.update_apply, Function.update_apply]
    split_ifs <;> rfl

/-! ## Accounting -/

theorem isVlan_repr_iff (v : ℤ) : IsVlan v.repr ↔ minVlanTag ≤ v ∧ v ≤ maxVlanTag := by
  refine ⟨?_, fun ⟨hle, hlt⟩ => ⟨v, hle, hlt, rfl⟩⟩
  rintro ⟨w, hle, hlt, heq⟩
  rw [Decimal.repr_injective heq]
  exact ⟨hle, hlt⟩

theorem mem_initVlans {v : ℤ} : v ∈ initVlans ↔ minVlanTag ≤ v ∧ v ≤ maxVlanTag := by
  unfold initVlans minVlanTag maxVlanTag
  rw [List.mem_map]
  constructor
  · rintro ⟨n, hn, rfl⟩
    rw [List.mem_range'_1] at hn
    simp only [Int.ofNat_eq_natCast]
    omega
  · rintro ⟨hle, hlt⟩
    refine ⟨v.toNat, List.mem_range'_1.2 ?_, ?_⟩
    · omega
    · simp only [Int.ofNat_eq_natCast]
      omega

theorem nodup_initVlans : initVlans.Nodup :=
  List.Nodup.map (fun _ _ h => Int.ofNat.inj h) List.nodup_range'

theorem accounted_new (nodeIpMgt nodeIpTun nodeName nodeType : String) (now : ℤ) :
    (NodeDefinition.new nodeIpMgt nodeIpTun nodeName nodeType now).Accounted where
  tags := Tags.accounted_free (nodup_initVlans.map Decimal.repr_injective) fun vlanId => by
    rw [List.mem_map]
    constructor
    · rintro ⟨v, hle, hlt, rfl⟩
      exact ⟨v, mem_initVlans.2 ⟨hle, hlt⟩, rfl⟩
    · rintro ⟨v, hv, rfl⟩
      exact (isVlan_repr_iff v).2 (mem_initVlans.1 hv)
  mapped _ := rfl

theorem Accounted.taken (h : node.Accounted) (hsort : node.availableLocalVlans.mergeSort (· ≤ ·) = v :: rest)
    (hnet : node.vlanOf network.netId = none) : (node.taken network v rest).Accounted where
  tags := by
    rw [tags_taken]
    refine h.tags.lend ?_ hnet
    have hperm : node.availableLocalVlans.Perm (v :: rest) := hsort ▸ (List.mergeSort_perm _ _).symm
    exact hperm.map Int.repr
  mapped netId := by
    have hfree : node.networkOf v.repr = none := by
      have hmem : v ∈ node.availableLocalVlans := (List.mergeSort_perm _ _).mem_iff.1 (hsort ▸ List.mem_cons_self)
      exact Option.map_eq_none_iff.1 (h.tags.holder_of_free v.repr (List.mem_map_of_mem hmem))
    rw [network_taken, vlanOf_taken, networkOf_taken]
    by_cases heq : netId = network.netId
    · simp [heq]
    · rw [Function.update_of_ne heq, Function.update_of_ne heq, h.mapped netId]
      cases hvlan : node.vlanOf netId with
      | none => rfl
      | some vlanId =>
        have hne : vlanId ≠ v.repr := by
          rintro rfl
          have hholder := (h.tags.holder_iff v.repr netId).2 hvlan
          simp [NodeDefinition.tags, hfree] at hholder
        simp [Function.update_of_ne hne]

theorem Accounted.released {netId : String} (h : node.Accounted) (hvlan : node.vlanOf netId = some v.repr) :
    (node.released v netId).Accounted where
  tags := by
    rw [tags_released]
    exact h.tags.giveBack hvlan
  mapped k := by
    rw [network_released, vlanOf_released, networkOf_released]
    by_cases heq : k = netId
    · simp [heq]
    · rw [Function.update_of_ne heq, Function.update_of_ne heq, h.mapped k]
      cases hk : node.vlanOf k with
      | none => rfl
      | some vlanId =>
        have hne : vlanId ≠ v.repr := by
          rintro rfl
          have hk' := (h.tags.holder_iff v.repr k).2 hk
          rw [(h.tags.holder_iff v.repr netId).2 hvlan] at hk'
          exact heq (Option.some.inj hk').symm
        simp [Function.update_of_ne hne]

theorem Accounted.network_eq_none_iff (h : node.Accounted) (netId : String) :
    node.network netId = none ↔ node.vlanOf netId = none := by
  rw [h.mapped netId]
  cases hvlan : node.vlanOf netId with
  | none => exact iff_of_true rfl rfl
  | some vlanId =>
    obtain ⟨network, hnetwork, -⟩ := Option.map_eq_some_iff.1 ((h.tags.holder_iff vlanId netId).2 hvlan)
    rw [Option.bind_some, hnetwork]
    exact iff_of_false (Option.some_ne_none _) (Option.some_ne_none _)

/-- A VLAN that a network has can be read as a number. -/
theorem Accounted.isVlan {netId vlanId : String} (h : node.Accounted) (hvlan : node.vlanOf netId = some vlanId) :
    IsVlan vlanId := by
  refine (h.tags.all_iff vlanId).2 (.inr ?_)
  rw [(h.tags.holder_iff vlanId netId).2 hvlan]
  exact Option.some_ne_none netId

theorem parseInteger_vlan {v : ℤ} (hle : minVlanTag ≤ v) (hlt : v ≤ maxVlanTag) :
    parseInteger (some v.repr) = some v := by
  unfold minVlanTag at hle
  unfold maxVlanTag at hlt
  exact parseInteger_repr (by omega) (by omega)

/-- The VLAN of a network can be released. -/
theorem Accounted.releaseVlan {netId vlanId : String} (h : node.Accounted)
    (hvlan : node.vlanOf netId = some vlanId) : ∃ v : ℤ, vlanId = v.repr ∧
      releaseVlan (some vlanId) netId node = (.ok (), node.released v netId) := by
  obtain ⟨v, hle, hlt, rfl⟩ := h.isVlan hvlan
  refine ⟨v, rfl, ?_⟩
  obtain ⟨vlans, hvlans, -⟩ := Option.bind_eq_some_iff.1 hvlan
  have hholder := (h.tags.holder_iff v.repr netId).2 hvlan
  obtain ⟨network, hnetworkOf, -⟩ := Option.map_eq_some_iff.1 hholder
  obtain ⟨used, hused, -⟩ := Option.bind_eq_some_iff.1 hnetworkOf
  have hnetwork := h.mapped netId
  rw [hvlan, Option.bind_some, hnetworkOf] at hnetwork
  obtain ⟨networks, hnetworks, -⟩ := Option.bind_eq_some_iff.1 hnetwork
  unfold NodeDefinition.releaseVlan NodeDefinition.released
  simp [parseInteger_vlan hle hlt, hused, hnetworks, hvlans]

end NodeDefinition

end Torpedo
