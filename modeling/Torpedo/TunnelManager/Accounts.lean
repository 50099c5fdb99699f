import Torpedo.TunnelManager.TunnelManager
import Torpedo.TunnelManager.Vlans

/-!
# VLANs along runs

The VLANs of each node stay accounted for (`Platform.accounted_of_clean`), unless a network is mapped on the
network node again, or a port comes to a compute node whose network is not known: the VLAN that is taken for
it is lost (`Platform.not_accounted_createPortFlow`).
-/

namespace Torpedo

namespace Platform

variable {ε α : Type} (p : Platform ε) {tm : OFMTunnelManager ε} {nodeIp : String} {node : NodeDefinition}

/-! ## Methods of a node -/

/-- The node of an address is another one. -/
def setNode (nodeIp : String) (node : NodeDefinition) (tm : OFMTunnelManager ε) : OFMTunnelManager ε :=
  { tm with nodesByIp := tm.nodesByIp.change nodeIp fun _ => node }

theorem get_setNode (nodeIp' : String) : (setNode nodeIp node tm).nodesByIp.get nodeIp' =
    if nodeIp' = nodeIp then (tm.nodesByIp.get nodeIp').map fun _ => node else tm.nodesByIp.get nodeIp' :=
  HashMap.get_change ..

theorem get_setNode_self (h : tm.nodesByIp.get nodeIp ≠ none) :
    (setNode nodeIp node tm).nodesByIp.get nodeIp = some node := by
  obtain ⟨node', hnode'⟩ := Option.ne_none_iff_exists'.1 h
  rw [get_setNode, if_pos rfl, hnode']
  rfl

theorem atNode_some (h : tm.nodesByIp.get nodeIp = some node) (m : Method NodeDefinition α) :
    atNode nodeIp m tm = ((m node).1, setNode nodeIp (m node).2 tm) := by
  unfold atNode
  simp [h, setNode]

theorem atNode_none (h : tm.nodesByIp.get nodeIp = none) (m : Method NodeDefinition α) :
    atNode nodeIp m tm = (.error .exception, tm) := by
  unfold atNode
  simp [h]

theorem ends_atNode {m : Method NodeDefinition α} {Q : α → OFMTunnelManager ε → Prop}
    {E : OFMTunnelManager ε → Prop}
    (hsome : ∀ node, tm.nodesByIp.get nodeIp = some node →
      m.Ends node (fun a node' => Q a (setNode nodeIp node' tm)) fun node' => E (setNode nodeIp node' tm))
    (hnone : tm.nodesByIp.get nodeIp = none → E tm) : (atNode nodeIp m).Ends tm Q E := by
  unfold Method.Ends
  cases h : tm.nodesByIp.get nodeIp with
  | none =>
    rw [atNode_none h]
    exact hnone h
  | some node =>
    have hends := hsome node h
    unfold Method.Ends at hends
    rw [atNode_some h]
    cases hm : m node with
    | mk r node' =>
      rw [hm] at hends
      cases r with
      | ok a => exact hends
      | error e => exact hends

/-! ## The invariant -/

/-- The VLANs of each node are accounted for. -/
structure Kept (tm : OFMTunnelManager ε) : Prop where
  accounted : ∀ nodeIp node, tm.nodesByIp.get nodeIp = some node → node.Accounted
  named : ∀ netId network, tm.vNetsByGuid.get netId = some network → network.netId = netId

theorem Kept.setNode (h : Kept tm) (hnode : node.Accounted) : Kept (setNode nodeIp node tm) where
  accounted nodeIp' node' hget := by
    rw [get_setNode] at hget
    split_ifs at hget
    · obtain ⟨-, -, rfl⟩ := Option.map_eq_some_iff.1 hget
      exact hnode
    · exact h.accounted nodeIp' node' hget
  named := h.named

theorem Kept.congr {tm' : OFMTunnelManager ε} (h : Kept tm) (hnodes : tm'.nodesByIp = tm.nodesByIp)
    (hnets : tm'.vNetsByGuid = tm.vNetsByGuid) : Kept tm' :=
  ⟨hnodes ▸ h.accounted, hnets ▸ h.named⟩

theorem keeps_atNode {m : Method NodeDefinition α} (h : Method.Keeps NodeDefinition.Accounted m) :
    Method.Keeps (Kept (ε := ε)) (atNode nodeIp m) := by
  refine Method.keeps_iff.2 fun tm htm => ends_atNode (fun node hnode => ?_) fun _ => htm
  refine (Method.keeps_iff.1 h node (htm.accounted nodeIp node hnode)).imp (fun _ _ h' => ?_) fun _ h' => ?_
  · exact htm.setNode h'
  · exact htm.setNode h'

/-- Only the other fields change. -/
theorem keeps_restPost (nodeIp : String) (command : Command) : Method.Keeps Kept (p.restPost nodeIp command) :=
  fun _ h => h.congr rfl rfl

theorem keeps_restGet (nodeIp : String) (command : Command) : Method.Keeps Kept (p.restGet nodeIp command) :=
  Method.keeps_get.bind fun _ => Method.Keeps.bind (fun _ h => h.congr rfl rfl) fun _ => Method.keeps_nonNull _

theorem ends_restPost {command : Command} {Q : Unit → OFMTunnelManager ε → Prop} {E : OFMTunnelManager ε → Prop}
    (h : ∀ agents, Q () { tm with agents }) : (p.restPost nodeIp command).Ends tm Q E := h _

theorem ends_restPost_bind {command : Command} {f : Unit → Method (OFMTunnelManager ε) α}
    {Q : α → OFMTunnelManager ε → Prop} {E : OFMTunnelManager ε → Prop}
    (h : ∀ agents, (f ()).Ends { tm with agents } Q E) : (p.restPost nodeIp command >>= f).Ends tm Q E := h _

/-! ## Flows of VLANs -/

/-- What is left of the loop of `ofports_flow`: the VLANs that are left have their networks still. -/
structure Flooding (nodeIp : String) (used : HashMap String NetworkDefinition) (vlanIds : List String)
    (tm : OFMTunnelManager ε) : Prop where
  kept : Kept tm
  nodup : vlanIds.Nodup
  networkOf : ∀ node, tm.nodesByIp.get nodeIp = some node → ∀ vlanId ∈ vlanIds,
    node.networkOf vlanId = used.get vlanId

theorem ends_floodVlan {ofports : String} {used : HashMap String NetworkDefinition} {vlanId : String}
    {vlanIds : List String} (h : Flooding nodeIp used (vlanId :: vlanIds) tm) :
    (p.floodVlan nodeIp ofports used vlanId).Ends tm (fun _ => Flooding nodeIp used vlanIds) Kept := by
  obtain ⟨hvlanId, hnodup⟩ := List.nodup_cons.1 h.nodup
  have hrest : Flooding nodeIp used vlanIds tm :=
    ⟨h.kept, hnodup, fun node hnode vlanId' h' => h.networkOf node hnode vlanId' (List.mem_cons_of_mem _ h')⟩
  unfold floodVlan
  refine Method.ends_nonNull_bind (fun network hnetwork => ?_) fun _ => h.kept
  refine Method.ends_nonNull_bind (fun tunId _ => ?_) fun _ => h.kept
  split_ifs
  · refine p.ends_restPost_bind fun _ => p.ends_restPost_bind fun agents => ends_atNode (fun node hnode => ?_) ?_
    · have hacc := h.kept.accounted nodeIp node hnode
      have hnetworkOf := (h.networkOf node hnode vlanId List.mem_cons_self).trans hnetwork
      have hvlan : node.vlanOf network.netId = some vlanId :=
        (hacc.tags.holder_iff vlanId network.netId).1 (congrArg (Option.map NetworkDefinition.netId) hnetworkOf)
      obtain ⟨v, rfl, hrelease⟩ := hacc.releaseVlan hvlan
      have hkept : Kept { tm with agents } := h.kept.congr rfl rfl
      unfold Method.Ends
      rw [hrelease]
      refine ⟨hkept.setNode (hacc.released hvlan), hnodup, fun node' hnode' vlanId' hmem => ?_⟩
      rw [get_setNode_self (hnode.trans_ne (Option.some_ne_none node))] at hnode'
      obtain rfl := Option.some.inj hnode'
      rw [NodeDefinition.networkOf_released,
        Function.update_of_ne fun heq : vlanId' = v.repr => hvlanId (heq ▸ hmem)]
      exact h.networkOf node hnode vlanId' (List.mem_cons_of_mem _ hmem)
    · exact fun _ => h.kept.congr rfl rfl
  · exact p.ends_restPost fun _ => ⟨hrest.kept.congr rfl rfl, hnodup, hrest.networkOf⟩

theorem keeps_ofportsFlow (nodeIp : String) : Method.Keeps Kept (p.ofportsFlow nodeIp) := by
  refine Method.Keeps.catchAll (Method.keeps_iff.2 fun tm htm => ?_)
  refine Method.ends_get_bind (Method.ends_nonNull_bind (fun node hnode => ?_) fun _ => htm)
  cases node.ofports with
  | none => exact htm
  | some ofports =>
    refine (Method.ends_forEach (I := Flooding nodeIp (node.usedLocalVNetsByVlanid.getD ∅))
      (fun vlanId vlanIds tm' h => p.ends_floodVlan h) ?_).imp (fun _ _ h => h.kept) fun _ h => h
    refine ⟨htm, (HashOrder.nodup_iter _).2 (HashMap.nodup_keySet _), fun node' hnode' vlanId _ => ?_⟩
    obtain rfl := Option.some.inj (hnode.symm.trans hnode')
    unfold NodeDefinition.networkOf
    cases node.usedLocalVNetsByVlanid <;> rfl

/-! ## Mapping and unmapping -/

theorem keeps_modifyNode {g : NodeDefinition → NodeDefinition} (h : ∀ node, node.Accounted → (g node).Accounted) :
    Method.Keeps (Kept (ε := ε)) (atNode nodeIp (Method.modify g)) := keeps_atNode (Method.keeps_modify h)

/-- A network can be mapped if it is known and not mapped yet. Otherwise there must be no VLAN to take. -/
theorem ends_mapNetwork {netId : Option String} {network : Option NetworkDefinition} (h : Kept tm)
    (hnode : ∀ node, tm.nodesByIp.get nodeIp = some node → node.availableLocalVlans = [] ∨
      ∃ n, network = some n ∧ netId = some n.netId ∧ node.network n.netId = none) :
    (p.mapNetwork nodeIp netId network).Ends tm (fun _ => Kept) Kept := by
  unfold mapNetwork
  refine Method.Ends.bind (Q := fun _ => Kept) (ends_atNode (fun node hget => ?_) fun _ => h) fun vid tm' h' => ?_
  · unfold Method.Ends
    obtain hnil | ⟨n, rfl, rfl, hn⟩ := hnode node hget
    · rw [NodeDefinition.takeVlan_nil hnil]
      exact h.setNode (h.accounted nodeIp node hget)
    · cases hsort : node.availableLocalVlans.mergeSort (· ≤ ·) with
      | nil =>
        have hnil : node.availableLocalVlans = [] := List.Perm.eq_nil (hsort ▸ (List.mergeSort_perm _ _).symm)
        rw [NodeDefinition.takeVlan_nil hnil]
        exact h.setNode (h.accounted nodeIp node hget)
      | cons v rest =>
        rw [NodeDefinition.takeVlan_cons hsort]
        have hacc := h.accounted nodeIp node hget
        exact h.setNode (hacc.taken hsort ((hacc.network_eq_none_iff n.netId).1 hn))
  · refine Method.ends_nonNull_bind (fun tunId _ => ?_) fun _ => h'
    exact p.ends_restPost fun _ => h'.congr rfl rfl

theorem ends_unmapNetwork {vlanId : Option String} {tunId networkId : String} (h : Kept tm)
    (hnode : ∀ node, tm.nodesByIp.get nodeIp = some node → node.vlanOf networkId = vlanId) :
    (p.unmapNetwork nodeIp vlanId tunId networkId).Ends tm (fun _ => Kept) Kept := by
  unfold unmapNetwork
  refine p.ends_restPost_bind fun _ => p.ends_restPost_bind fun agents => ?_
  have hkept : Kept { tm with agents } := h.congr rfl rfl
  refine ends_atNode (fun node hget => ?_) fun _ => hkept
  have hacc := h.accounted nodeIp node hget
  unfold Method.Ends
  cases vlanId with
  | none => exact hkept.setNode hacc
  | some vlanId =>
    obtain ⟨v, rfl, hrelease⟩ := hacc.releaseVlan (hnode node hget)
    rw [hrelease]
    exact hkept.setNode (hacc.released (hnode node hget))

/-! ## Networks -/

theorem keeps_unmapAt (networkId nodeIp : String) : Method.Keeps Kept (p.unmapAt networkId nodeIp) := by
  refine Method.keeps_iff.2 fun tm htm => ?_
  refine Method.ends_get_bind (Method.ends_nonNull_bind (fun node hnode => ?_) fun _ => htm)
  cases node.network networkId with
  | none => exact htm
  | some network =>
    refine Method.ends_nonNull_bind (fun vlans hvlans => ?_) fun _ => htm
    refine Method.ends_nonNull_bind (fun tunId _ => ?_) fun _ => htm
    refine p.ends_unmapNetwork htm fun node' hnode' => ?_
    obtain rfl := Option.some.inj (hnode.symm.trans hnode')
    unfold NodeDefinition.vlanOf
    rw [hvlans]
    rfl

theorem keeps_deleteNetworkFlow (networkId : String) : Method.Keeps Kept (p.deleteNetworkFlow networkId) := by
  refine Method.Keeps.bind (Method.keeps_modify fun tm h => ⟨h.accounted, fun netId network hget => ?_⟩) fun _ =>
    Method.keeps_get.bind fun tm => Method.keeps_forEach (p.keeps_unmapAt networkId) _
  dsimp only at hget
  rw [HashMap.get_remove] at hget
  split_ifs at hget
  exact h.named netId network hget

theorem findNode_congr {tm' : OFMTunnelManager ε} (h : tm'.nodesByIp = tm.nodesByIp)
    (kind : NodeDefinition → Bool) : p.findNode tm' kind = p.findNode tm kind := by
  unfold findNode
  rw [h]

/-- A network takes a VLAN of the network node although it is mapped there. -/
def MapsAgain (network : NetworkDefinition) (tm : OFMTunnelManager ε) : Prop :=
  p.networkNodeIp tm ≠ "" ∧ ∃ node, tm.nodesByIp.get (p.networkNodeIp tm) = some node ∧
    node.availableLocalVlans ≠ [] ∧ node.network network.netId ≠ none

theorem kept_createNetworkFlow {network : NetworkDefinition} (h : Kept tm) (hmaps : ¬p.MapsAgain network tm) :
    Kept (p.createNetworkFlow network tm).2 := by
  refine Method.ends_iff.1 (Method.ends_modify_bind (Method.ends_get_bind ?_))
  have hip : p.networkNodeIp { tm with vNetsByGuid := tm.vNetsByGuid.put network.netId network } =
      p.networkNodeIp tm := p.findNode_congr rfl _
  have hkept : Kept { tm with vNetsByGuid := tm.vNetsByGuid.put network.netId network } := by
    refine ⟨h.accounted, fun netId network' hget => ?_⟩
    dsimp only at hget
    rw [HashMap.get_put] at hget
    split_ifs at hget with heq
    · obtain rfl := Option.some.inj hget
      exact heq.symm
    · exact h.named netId network' hget
  rw [hip]
  split_ifs with hne
  · refine Method.Ends.catchAll (Method.Ends.bind (p.ends_mapNetwork hkept fun node hnode => ?_) fun _ tm' h' => ?_)
    · by_cases hnil : node.availableLocalVlans = []
      · exact .inl hnil
      · refine .inr ⟨network, rfl, rfl, ?_⟩
        by_contra hmapped
        exact hmaps ⟨hne, node, hnode, hnil, hmapped⟩
    · exact Method.ends_iff.2 (p.keeps_ofportsFlow _ tm' h')
  · exact hkept

/-! ## Ports -/

theorem ends_isMapped_bind {networkId : Option String} {f : Bool → Method (OFMTunnelManager ε) α}
    {Q : α → OFMTunnelManager ε → Prop} {E : OFMTunnelManager ε → Prop}
    (hfalse : node.usedLocalVNetsByGuid = none ∨ (∃ id, networkId = some id ∧ node.network id = none) →
      (f false).Ends tm Q E)
    (htrue : ∀ id, networkId = some id → node.network id ≠ none → (f true).Ends tm Q E) (hthrow : E tm) :
    (isMapped node networkId >>= f).Ends tm Q E := by
  unfold isMapped
  cases hnets : node.usedLocalVNetsByGuid with
  | none => exact hfalse (.inl hnets)
  | some networks =>
    cases networkId with
    | none => exact hthrow
    | some id =>
      have hnetwork : node.network id = networks.get id := by
        unfold NodeDefinition.network
        rw [hnets]
        rfl
      show (f (networks.containsKey id)).Ends tm Q E
      unfold HashMap.containsKey
      cases hget : networks.get id with
      | none => exact hfalse (.inr ⟨id, rfl, hnetwork.trans hget⟩)
      | some network =>
        refine htrue id rfl ?_
        rw [hnetwork, hget]
        exact Option.some_ne_none network

theorem ends_hostNodeIp_bind {bindingHostId : Option String} {f : String → Method (OFMTunnelManager ε) α}
    {Q : α → OFMTunnelManager ε → Prop} {E : OFMTunnelManager ε → Prop} (hempty : (f "").Ends tm Q E)
    (hhost : ∀ host, bindingHostId = some host → (f (p.computeNodeIp tm host)).Ends tm Q E) (hthrow : E tm) :
    (p.hostNodeIp bindingHostId >>= f).Ends tm Q E := by
  unfold hostNodeIp
  by_cases hnodes : tm.nodesByIp.keySet = []
  · show (((if _ then _ else _ : Method _ _) >>= f).Ends tm Q E)
    rw [if_pos hnodes]
    exact hempty
  · show (((if _ then _ else _ : Method _ _) >>= f).Ends tm Q E)
    rw [if_neg hnodes]
    cases bindingHostId with
    | none => exact hthrow
    | some host => exact hhost host rfl

/-- A VLAN is taken for a network that is not known. -/
def MapsUnknown (port : PortDefinition) (tm : OFMTunnelManager ε) : Prop :=
  IsComputeOwner port.deviceOwner ∧ port.networkId.bind tm.vNetsByGuid.get = none ∧
    ∃ host, port.bindingHostId = some host ∧ p.computeNodeIp tm host ≠ "" ∧
      ∃ node, tm.nodesByIp.get (p.computeNodeIp tm host) = some node ∧ node.availableLocalVlans ≠ [] ∧
        (node.usedLocalVNetsByGuid = none ∨ ∃ id, port.networkId = some id ∧ node.network id = none)

theorem keeps_addPort (port : PortDefinition) :
    Method.Keeps (Kept (ε := ε)) (atNode nodeIp (Method.modify (NodeDefinition.addPort port))) :=
  keeps_modifyNode fun _ hnode => ⟨hnode.tags, hnode.mapped⟩

theorem keeps_removePort (portId : String) :
    Method.Keeps (Kept (ε := ε)) (atNode nodeIp (Method.modify (NodeDefinition.removePort portId))) :=
  keeps_modifyNode fun _ hnode => ⟨hnode.tags, hnode.mapped⟩

theorem keeps_placePort (port : PortDefinition) (nodeIp : String) :
    Method.Keeps Kept (p.placePort port nodeIp) :=
  (keeps_addPort port).bind fun _ =>
    Method.Keeps.bind (fun _ h => h.congr rfl rfl) fun _ => p.keeps_ofportsFlow nodeIp

theorem ends_createPortAt {port : PortDefinition} (h : Kept tm)
    (hnode : ∀ node, tm.nodesByIp.get nodeIp = some node → node.availableLocalVlans ≠ [] →
      (node.usedLocalVNetsByGuid = none ∨ ∃ id, port.networkId = some id ∧ node.network id = none) →
        port.networkId.bind tm.vNetsByGuid.get ≠ none) :
    (p.createPortAt port nodeIp).Ends tm (fun _ => Kept) Kept := by
  refine Method.ends_get_bind (Method.ends_nonNull_bind (fun node hget => ?_) fun _ => h)
  have hplace := Method.keeps_iff.1 (p.keeps_placePort port nodeIp)
  refine ends_isMapped_bind (fun hmapped => ?_) (fun _ _ _ => hplace tm h) h
  refine Method.Ends.bind (p.ends_mapNetwork h fun node' hget' => ?_) fun _ => hplace
  obtain rfl := Option.some.inj (hget.symm.trans hget')
  by_cases hnil : node.availableLocalVlans = []
  · exact .inl hnil
  · obtain ⟨network, hnetwork⟩ := Option.ne_none_iff_exists'.1 (hnode node hget hnil hmapped)
    obtain ⟨id, hid, hnet⟩ := Option.bind_eq_some_iff.1 hnetwork
    obtain rfl := h.named id network hnet
    refine .inr ⟨network, hnetwork, hid, ?_⟩
    obtain hnone | ⟨id', hid', hnone⟩ := hmapped
    · unfold NodeDefinition.network
      rw [hnone]
      rfl
    · obtain rfl := Option.some.inj (hid.symm.trans hid')
      exact hnone

theorem kept_createPortFlow {port : PortDefinition} (h : Kept tm) (hmaps : ¬p.MapsUnknown port tm) :
    Kept (p.createPortFlow port tm).2 := by
  refine Method.ends_iff.1 (Method.ends_modify_bind (Method.ends_get_bind ?_))
  have hkept : Kept { tm with vPortsByGuid := tm.vPortsByGuid.put port.portId port } := h.congr rfl rfl
  split_ifs with howner hne howner'
  · exact Method.ends_iff.2 (keeps_addPort port _ hkept)
  · exact hkept
  · refine p.ends_hostNodeIp_bind hkept (fun host hhost => ?_) hkept
    have hip : p.computeNodeIp { tm with vPortsByGuid := tm.vPortsByGuid.put port.portId port } host =
        p.computeNodeIp tm host := p.findNode_congr rfl _
    rw [hip]
    split_ifs with hne
    · refine Method.Ends.catchAll (p.ends_createPortAt hkept fun node hget hnil hmapped hnone => ?_)
      exact hmaps ⟨howner', hnone, host, hhost, hne, node, hget, hnil, hmapped⟩
    · exact hkept
  · exact hkept

theorem keeps_deletePortAt (port : PortDefinition) (portId nodeIp : String) :
    Method.Keeps Kept (p.deletePortAt port portId nodeIp) := by
  refine Method.keeps_iff.2 fun tm htm => ?_
  refine Method.ends_get_bind (Method.ends_nonNull_bind (fun node hget => ?_) fun _ => htm)
  refine Method.ends_nonNull_bind (fun vlans hvlans => ?_) fun _ => htm
  refine Method.ends_nonNull_bind (fun networkId _ => ?_) fun _ => htm
  refine Method.ends_nonNull_bind (fun network _ => ?_) fun _ => htm
  refine Method.ends_nonNull_bind (fun tunId _ => ?_) fun _ => htm
  have hvlan : node.vlanOf networkId = vlans.get networkId := by
    unfold NodeDefinition.vlanOf
    rw [hvlans]
    rfl
  refine Method.Ends.bind (Q := fun _ tm' => Kept tm' ∧ ∀ node', tm'.nodesByIp.get nodeIp = some node' →
      node'.vlanOf networkId = vlans.get networkId) ?_ fun _ tm' ⟨h', hnode'⟩ => ?_
  · unfold displacePort
    split_ifs
    · refine Method.Ends.bind (Q := fun _ tm' => Kept tm' ∧ ∀ node', tm'.nodesByIp.get nodeIp = some node' →
        node'.vlanOf networkId = vlans.get networkId) (ends_atNode (fun node' hget' => ?_) fun _ => htm)
        fun _ tm' h' => Method.ends_modify ⟨h'.1.congr rfl rfl, h'.2⟩
      obtain rfl := Option.some.inj (hget.symm.trans hget')
      have hacc := htm.accounted nodeIp node hget
      refine ⟨htm.setNode ⟨hacc.tags, hacc.mapped⟩, fun node' hnode' => ?_⟩
      rw [get_setNode_self (hget.trans_ne (Option.some_ne_none node))] at hnode'
      obtain rfl := Option.some.inj hnode'
      exact hvlan
    · refine ⟨htm, fun node' hget' => ?_⟩
      obtain rfl := Option.some.inj (hget.symm.trans hget')
      exact hvlan
  · split_ifs
    · exact p.ends_unmapNetwork h' hnode'
    · exact h'

theorem keeps_deletePortFlow (portId : String) : Method.Keeps Kept (p.deletePortFlow portId) := by
  refine Method.keeps_iff.2 fun tm htm => ?_
  refine Method.ends_get_bind (Method.ends_nonNull_bind (fun port _ => ?_) fun _ => htm)
  refine Method.ends_modify_bind (Method.ends_get_bind ?_)
  have hkept : Kept { tm with vPortsByGuid := tm.vPortsByGuid.remove portId } := htm.congr rfl rfl
  split_ifs
  · exact Method.ends_iff.2 (keeps_removePort portId _ hkept)
  · exact hkept
  · refine p.ends_hostNodeIp_bind hkept (fun host _ => ?_) hkept
    split_ifs
    · exact Method.ends_iff.2 (p.keeps_deletePortAt port portId _ _ hkept)
    · exact hkept
  · exact hkept

/-! ## Tunnels -/

theorem keeps_setupBridge (nodeIp irisIp : String) : Method.Keeps Kept (p.setupBridge nodeIp irisIp) := by
  refine Method.Keeps.catchAll ((p.keeps_restGet _ _).bind fun _ => ?_)
  exact (Method.keeps_forEach (p.keeps_restPost nodeIp) _).bind fun _ =>
    Method.keeps_forEach (fun _ => p.keeps_restPost nodeIp _) _

theorem keeps_setupTunnelPort (nodeIp portName localIpTun remoteIpTun : String) :
    Method.Keeps Kept (p.setupTunnelPort nodeIp portName localIpTun remoteIpTun) := by
  refine Method.Keeps.catchAll ((p.keeps_restPost _ _).bind fun _ => (p.keeps_restGet _ _).bind fun ofport => ?_)
  refine (p.keeps_restPost _ _).bind fun _ => ?_
  have hadd : Method.Keeps (Kept (ε := ε)) (atNode nodeIp (Method.modify (NodeDefinition.addOfport ofport))) :=
    keeps_modifyNode fun _ hnode => ⟨hnode.tags, hnode.mapped⟩
  exact hadd.bind fun _ => p.keeps_ofportsFlow nodeIp

theorem keeps_connectNodes (nodeIpMgt nodeIpTun remoteIpMgt : String) :
    Method.Keeps Kept (p.connectNodes nodeIpMgt nodeIpTun remoteIpMgt) := by
  refine Method.keeps_get.bind fun tm => (Method.keeps_nonNull _).bind fun remote => ?_
  split_ifs
  · refine (Method.keeps_nonNull _).bind fun _ => (p.keeps_setupTunnelPort _ _ _ _).bind fun _ => ?_
    exact (Method.keeps_nonNull _).bind fun _ => p.keeps_setupTunnelPort _ _ _ _
  · exact Method.keeps_pure

theorem keeps_registerNode (nodeIpMgt nodeIpTun nodeName nodeType irisIp : String) (now : ℤ) :
    Method.Keeps Kept (p.registerNode nodeIpMgt nodeIpTun nodeName nodeType irisIp now) := by
  refine Method.Keeps.bind (fun tm h => ⟨fun nodeIp node hget => ?_, h.named⟩) fun _ => ?_
  · change (tm.nodesByIp.put _ _).get nodeIp = _ at hget
    rw [HashMap.get_put] at hget
    split_ifs at hget
    · obtain rfl := Option.some.inj hget
      exact NodeDefinition.accounted_new _ _ _ _ _
    · exact h.accounted nodeIp node hget
  · have hdpid : ∀ bridge, Method.Keeps Kept (p.datapathId nodeIpMgt bridge) := fun _ =>
      (p.keeps_restGet _ _).bind fun _ => Method.keeps_nonNull _
    refine (hdpid _).bind fun intDpid => (hdpid _).bind fun tunDpid => ?_
    refine Method.Keeps.bind (fun _ h => h.congr rfl rfl) fun _ => (p.keeps_setupBridge _ _).bind fun _ => ?_
    refine Method.keeps_get.bind fun tm => ?_
    split_ifs
    · exact Method.keeps_forEach (p.keeps_connectNodes _ _) _
    · exact Method.keeps_pure

theorem keeps_addTunnel (nodeIpMgt nodeIpTun nodeName nodeType irisIp : String) (now : ℤ) :
    Method.Keeps Kept (p.addTunnel nodeIpMgt nodeIpTun nodeName nodeType irisIp now) := by
  refine Method.Keeps.catchAll (Method.keeps_get.bind fun tm => ?_)
  have hupdate : Method.Keeps (Kept (ε := ε)) (atNode nodeIpMgt (Method.modify fun node =>
      { node with currentTime := now, nodeName, nodeType })) :=
    keeps_modifyNode fun _ hnode => ⟨hnode.tags, hnode.mapped⟩
  split_ifs
  · exact (p.keeps_registerNode _ _ _ _ _ _).bind fun _ => hupdate
  · exact hupdate

/-! ## Runs -/

/-- Agents that do not answer. -/
def silent : Platform Unit where
  tunnelType := "vxlan"
  vxlanPortNumber := "4789"
  portNumber := "6633"
  getAddress _ := none
  order := .insertion
  post _ _ _ := ()
  get _ _ _ := ([], ())

def novaPort : PortDefinition where
  portId := "port"
  bindingHostId := some "host"
  deviceOwner := some "compute:nova"
  networkId := some "network"

/-- A call that maps a network a second time, or maps one that is not known. -/
def Leaks (tm : OFMTunnelManager ε) : TunnelCall → Prop
  | .createNetworkFlow network => p.MapsAgain network tm
  | .createPortFlow port => p.MapsUnknown port tm
  | _ => False

theorem kept_step (call : TunnelCall) (h : Kept tm) (hleak : ¬p.Leaks tm call) : Kept (p.step tm call) := by
  cases call with
  | addTunnel nodeIpMgt nodeIpTun nodeName nodeType irisIp now => exact p.keeps_addTunnel _ _ _ _ _ _ tm h
  | createNetworkFlow network => exact p.kept_createNetworkFlow h hleak
  | deleteNetworkFlow networkId => exact p.keeps_deleteNetworkFlow networkId tm h
  | createPortFlow port => exact p.kept_createPortFlow h hleak
  | deletePortFlow portId => exact p.keeps_deletePortFlow portId tm h
  | ofportsFlow nodeIp => exact p.keeps_ofportsFlow nodeIp tm h

theorem kept_initial (agents : ε) : Kept (OFMTunnelManager.initial agents) := ⟨nofun, nofun⟩

/-- The VLANs of every node are accounted for in all states of a run in which no call leaks. -/
theorem accounted_of_clean {agents : ε} {calls : List TunnelCall}
    (h : Machine.Clean p.step p.Leaks (.initial agents) calls) (pre post : List TunnelCall)
    (hcalls : calls = pre ++ post) (nodeIp : String) (node : NodeDefinition)
    (hnode : (Machine.run p.step (.initial agents) pre).nodesByIp.get nodeIp = some node) : node.Accounted := by
  subst hcalls
  have hkept : Kept (Machine.run p.step (.initial agents) pre) :=
    h.prefix.invariant (fun _ call h hleak => p.kept_step call h hleak) (kept_initial agents)
  exact hkept.accounted nodeIp node hnode

/-- A node is added, and a network is created that has no network node. -/
def networkWithoutNode : List TunnelCall :=
  [.addTunnel "10.0.0.1" "192.168.0.1" "host" "compute" "10.0.0.9" 0, .createNetworkFlow { netId := "network" }]

theorem accounted_networkWithoutNode : ∃ node,
    (Machine.run silent.step (.initial ()) networkWithoutNode).nodesByIp.get "10.0.0.1" = some node ∧
      node.Accounted := by
  have hclean : Machine.Clean silent.step silent.Leaks (.initial ()) networkWithoutNode :=
    ⟨not_false, fun h => h.1 (by decide), trivial⟩
  exact ⟨_, rfl, silent.accounted_of_clean hclean _ [] (List.append_nil _).symm "10.0.0.1" _ rfl⟩

theorem hostNodeIp_some (host : String) (tm : OFMTunnelManager ε) :
    p.hostNodeIp (some host) tm = (.ok (p.computeNodeIp tm host), tm) := by
  unfold hostNodeIp
  by_cases hkeys : tm.nodesByIp.keySet = []
  · have hiter : p.order.iter tm.nodesByIp.keySet = [] := List.Perm.eq_nil (hkeys ▸ p.order.perm _)
    have hip : p.computeNodeIp tm host = "" := by
      unfold computeNodeIp findNode
      rw [hiter]
      rfl
    simp [hkeys, hip]
  · simp [hkeys]

theorem hostNodeIp_none (tm : OFMTunnelManager ε) : p.hostNodeIp none tm =
    (if tm.nodesByIp.keySet = [] then .ok "" else .error .exception, tm) := by
  unfold hostNodeIp
  by_cases hkeys : tm.nodesByIp.keySet = []
  · simp [hkeys]
  · simp [hkeys]

theorem isMapped_false {networkId : Option String}
    (h : node.usedLocalVNetsByGuid = none ∨ ∃ id, networkId = some id ∧ node.network id = none) :
    (isMapped node networkId : Method (OFMTunnelManager ε) Bool) = pure false := by
  unfold isMapped
  cases hnets : node.usedLocalVNetsByGuid with
  | none => rfl
  | some networks =>
    obtain h | ⟨id, rfl, hid⟩ := h
    · rw [hnets] at h
      cases h
    · have hget : networks.get id = none := by
        unfold NodeDefinition.network at hid
        rwa [hnets] at hid
      unfold HashMap.containsKey
      simp [hget]

/-- A VLAN that is taken for a network that is not known is neither available nor used. -/
theorem not_accounted_createPortFlow {port : PortDefinition} (h : Kept tm) (hmaps : p.MapsUnknown port tm) :
    ∃ nodeIp node, (p.createPortFlow port tm).2.nodesByIp.get nodeIp = some node ∧ ¬node.Accounted := by
  obtain ⟨howner, hnet, host, hhost, hne, node, hget, hnil, hmapped⟩ := hmaps
  have hsort : ∃ v rest, node.availableLocalVlans.mergeSort (· ≤ ·) = v :: rest :=
    List.exists_cons_of_ne_nil fun hsort => hnil (List.Perm.eq_nil (hsort ▸ (List.mergeSort_perm _ _).symm))
  obtain ⟨v, rest, hsort⟩ := hsort
  have hnetwork : ¬IsNetworkOwner port.deviceOwner := by
    unfold IsComputeOwner at howner
    unfold IsNetworkOwner
    obtain howner | howner := howner
    · rw [howner]
      decide
    · rw [howner]
      decide
  have hlost : ∃ tm', tm'.nodesByIp = tm.nodesByIp ∧ (p.createPortFlow port tm).2 =
      setNode (p.computeNodeIp tm host) { node with
        availableLocalVlans := rest
        usedLocalVNetsByVlanid := some (node.usedLocalVNetsByVlanid.getD ∅) } tm' := by
    refine ⟨{ tm with vPortsByGuid := tm.vPortsByGuid.put port.portId port }, rfl, ?_⟩
    have hip : p.computeNodeIp { tm with vPortsByGuid := tm.vPortsByGuid.put port.portId port } host =
        p.computeNodeIp tm host := p.findNode_congr rfl _
    have hget' : ({ tm with vPortsByGuid := tm.vPortsByGuid.put port.portId port } :
        OFMTunnelManager ε).nodesByIp.get (p.computeNodeIp tm host) = some node := hget
    have hhostNode := p.hostNodeIp_some host
      { tm with vPortsByGuid := tm.vPortsByGuid.put port.portId port }
    have htake := atNode_some hget' (NodeDefinition.takeVlan port.networkId none)
    rw [NodeDefinition.takeVlan_unknown hsort] at htake
    unfold createPortFlow
    rw [Method.modify_bind_apply, Method.get_bind_apply, if_neg hnetwork, if_pos howner, hhost,
      Method.bind_ok hhostNode, hip, if_pos hne, Method.catchAll_apply]
    unfold createPortAt
    rw [Method.get_bind_apply]
    dsimp only
    rw [hget, Method.nonNull_some, Method.pure_bind, isMapped_false hmapped, Method.pure_bind, hnet]
    unfold mapNetwork
    exact congrArg Prod.snd (Method.bind_error (Method.bind_error htake))
  obtain ⟨tm', hnodes, hlost⟩ := hlost
  have hadded : tm'.nodesByIp.get (p.computeNodeIp tm host) ≠ none := by
    rw [hnodes, hget]
    exact Option.some_ne_none node
  refine ⟨_, _, hlost ▸ get_setNode_self hadded, fun hacc => ?_⟩
  have hperm : node.availableLocalVlans.Perm (v :: rest) := hsort ▸ (List.mergeSort_perm _ _).symm
  have hbefore := h.accounted _ node hget
  have hfree : v.repr ∈ node.availableLocalVlans.map Int.repr :=
    List.mem_map_of_mem (hperm.mem_iff.2 List.mem_cons_self)
  have hv : v.repr ∉ rest.map Int.repr :=
    (List.nodup_cons.1 ((hperm.map Int.repr).nodup_iff.1 hbefore.tags.nodup)).1
  obtain hfree' | hholder := (hacc.tags.all_iff v.repr).1 ((hbefore.tags.all_iff v.repr).2 (.inl hfree))
  · exact hv hfree'
  · refine hholder (Eq.trans ?_ (hbefore.tags.holder_of_free v.repr hfree))
    unfold NodeDefinition.tags NodeDefinition.networkOf
    cases node.usedLocalVNetsByVlanid <;> rfl

/-! ## A port of an unknown network -/

/-- A node is added, and a port comes whose network has not been created. -/
def portOfUnknown : List TunnelCall :=
  [.addTunnel "10.0.0.1" "192.168.0.1" "host" "compute" "10.0.0.9" 0, .createPortFlow novaPort]

theorem not_accounted : ¬∀ (p : Platform Unit) (calls : List TunnelCall) (nodeIp : String) (node : NodeDefinition),
    (Machine.run p.step (.initial ()) calls).nodesByIp.get nodeIp = some node → node.Accounted := by
  intro h
  have hmaps : silent.MapsUnknown novaPort (Machine.run silent.step (.initial ()) (portOfUnknown.take 1)) :=
    ⟨by decide, rfl, "host", rfl, by decide, _, rfl, nofun, .inl rfl⟩
  have hkept : Kept (Machine.run silent.step (.initial ()) (portOfUnknown.take 1)) :=
    silent.keeps_addTunnel _ _ _ _ _ _ _ (kept_initial ())
  obtain ⟨nodeIp, node, hnode, hnot⟩ := silent.not_accounted_createPortFlow hkept hmaps
  exact hnot (h silent portOfUnknown nodeIp node hnode)

end Platform

end Torpedo
