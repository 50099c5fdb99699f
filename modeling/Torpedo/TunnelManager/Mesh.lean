import Torpedo.TunnelManager.Accounts
import Torpedo.Util.Overlay

/-!
# The mesh of the tunnels

A node that is added is connected with all others, and a node that has not been added again for a time is cut
off from them. A call stops at a request that fails, and is not made up for: the node is registered, or is not
registered any more, and the same call does nothing about its tunnels then.
-/

namespace Torpedo

variable {ε α β : Type}

/-! ## Ports -/

/-- The commands for the ports of the tunneling bridge. -/
def Command.IsPort : Command → Prop
  | .addPort .tunneling .. | .delPort .tunneling _ => True
  | _ => False

/-- The tunnel ports that the agents have, and what `ovs-vsctl` does to them. -/
structure TunnelPorts (p : Platform ε) where
  port : ε → String → String → Prop
  port_get : ∀ nodeIp command agents, port (p.get nodeIp command agents).2 = port agents
  port_post : ∀ nodeIp command agents, ¬command.IsPort → port (p.post nodeIp command agents) = port agents
  port_addPort : ∀ nodeIp portName localIpTun remoteIpTun agents nodeIp' portName',
    port (p.post nodeIp (.addPort .tunneling portName localIpTun remoteIpTun) agents) nodeIp' portName' ↔
      port agents nodeIp' portName' ∨ nodeIp' = nodeIp ∧ portName' = portName
  port_delPort : ∀ nodeIp portName agents nodeIp' portName',
    port (p.post nodeIp (.delPort .tunneling portName) agents) nodeIp' portName' ↔
      port agents nodeIp' portName' ∧ ¬(nodeIp' = nodeIp ∧ portName' = portName)
  ofport : ∀ nodeIp portName agents, port agents nodeIp portName →
    (p.get nodeIp (.getOfport portName) agents).1 ≠ []

/-- The address for tunnels, and the time when the node was added last. -/
def NodeDefinition.contact (node : NodeDefinition) : String × ℤ := (node.nodeIpTun, node.currentTime)

namespace Platform

variable (p : Platform ε)

/-- Some requests to the agents fail. -/
def failing (fails : String → Command → Bool) : Platform ε :=
  { p with
    post := fun nodeIp command agents => if fails nodeIp command then agents else p.post nodeIp command agents
    get := fun nodeIp command agents => if fails nodeIp command then ([], agents) else p.get nodeIp command agents }

/-- The name of the tunnel ports to a node. -/
def portName (contact : String × ℤ) : Option String := p.tunnelName contact.1

/-- The datapath id of a bridge, if it is answered. -/
def answeredDpid (nodeIp : String) (bridge : Bridge) (agents : ε) : Option ℤ :=
  (p.get nodeIp (.getDatapathId bridge) agents).1.head?.bind parseDatapathId

/-- The datapath ids of both bridges are answered. -/
def AnswersDpids (nodeIp : String) (agents : ε) : Prop :=
  p.answeredDpid nodeIp .integration agents ≠ none ∧
    p.answeredDpid nodeIp .tunneling (p.get nodeIp (.getDatapathId .integration) agents).2 ≠ none

end Platform

/-! ## Runs -/

inductive MeshOperation
  | addTunnel (nodeIpMgt nodeIpTun nodeName nodeType irisIp : String) (now : ℤ)
  | delTunnel (now : ℤ)

/-- A call, with the requests that fail meanwhile. -/
structure MeshCall where
  operation : MeshOperation
  fails : String → Command → Bool

namespace Platform

variable (p : Platform ε)

def operate : MeshOperation → Method (OFMTunnelManager ε) Unit
  | .addTunnel nodeIpMgt nodeIpTun nodeName nodeType irisIp now =>
    p.addTunnel nodeIpMgt nodeIpTun nodeName nodeType irisIp now
  | .delTunnel now => p.delTunnel now

def meshStep (tm : OFMTunnelManager ε) (call : MeshCall) : OFMTunnelManager ε :=
  ((p.failing call.fails).operate call.operation tm).2

end Platform

namespace TunnelPorts

variable {p : Platform ε} (ports : TunnelPorts p) (fails : String → Command → Bool) {tm tm' : OFMTunnelManager ε}
  {nodeIp nodeIpMgt nodeIpTun : String} {now : ℤ} {o : Overlay String (String × ℤ) String}

/-- The nodes that are registered, and the tunnel ports. -/
def overlay (tm : OFMTunnelManager ε) : Overlay String (String × ℤ) String where
  node nodeIp := (tm.nodesByIp.get nodeIp).map NodeDefinition.contact
  port := ports.port tm.agents

/-- Every two registered nodes have a tunnel port to each other, and no registered node has one to a node that
is not registered. -/
def FullMesh (tm : OFMTunnelManager ε) : Prop := (ports.overlay tm).FullMesh p.portName

/-! ## Calls that do all their work -/

/-- A new node has no tunnel ports that it should not have. If there are other nodes, its datapath ids are
answered, all names of tunnel ports are known, and no port fails to be added. -/
structure Joins (nodeIpMgt nodeIpTun : String) (tm : OFMTunnelManager ε) : Prop where
  old : ∀ portName, ports.port tm.agents nodeIpMgt portName → p.tunnelName nodeIpTun = some portName ∨
    ∃ nodeIp node, tm.nodesByIp.get nodeIp = some node ∧ p.tunnelName node.nodeIpTun = some portName
  answers : ∀ nodeIp node, tm.nodesByIp.get nodeIp = some node →
    (p.failing fails).AnswersDpids nodeIpMgt tm.agents
  added : ∀ nodeIp node, tm.nodesByIp.get nodeIp = some node → ∃ name remoteName,
    p.tunnelName nodeIpTun = some name ∧ p.tunnelName node.nodeIpTun = some remoteName ∧
      (fails nodeIpMgt (.addPort .tunneling remoteName nodeIpTun node.nodeIpTun) = true →
        ports.port tm.agents nodeIpMgt remoteName) ∧
      (fails nodeIp (.addPort .tunneling name node.nodeIpTun nodeIpTun) = true → ports.port tm.agents nodeIp name)

/-- The node has not been added again for a time. -/
def Expired (now : ℤ) (node : NodeDefinition) : Prop := Platform.deleteTimeGap ≤ now - node.currentTime

variable (p) in
/-- When a node goes, the nodes that are still registered then have other names of tunnel ports, and their
tunnel ports to it are found and deleted. -/
def Leaves (now : ℤ) (tm : OFMTunnelManager ε) : Prop :=
  ∀ pre nodeIp post, p.order.iter tm.nodesByIp.keySet = pre ++ nodeIp :: post →
    ∀ node name, tm.nodesByIp.get nodeIp = some node → Expired now node → p.tunnelName node.nodeIpTun = some name →
      ∀ nodeIp' node', tm.nodesByIp.get nodeIp' = some node' → nodeIp' ≠ nodeIp →
        (nodeIp' ∈ pre → ¬Expired now node') →
          p.tunnelName node'.nodeIpTun ≠ some name ∧ fails nodeIp' (.getOfport name) = false ∧
            fails nodeIp' (.delPort .tunneling name) = false

/-- The call does all that it has to do. -/
def Works (tm : OFMTunnelManager ε) (call : MeshCall) : Prop :=
  match call.operation with
  | .addTunnel nodeIpMgt nodeIpTun _ _ _ _ =>
    tm.nodesByIp.get nodeIpMgt = none → ports.Joins call.fails nodeIpMgt nodeIpTun tm
  | .delTunnel now => Leaves p call.fails now tm

/-! ## Methods that leave the tunnels alone -/

/-- A method changes no ports, no addresses and no times. -/
def Quiet (m : Method (OFMTunnelManager ε) α) : Prop := ∀ o, m.Keeps fun tm => ports.overlay tm = o

variable {ports fails}

theorem Quiet.bind {m : Method (OFMTunnelManager ε) α} {f : α → Method (OFMTunnelManager ε) β}
    (h : ports.Quiet m) (hf : ∀ a, ports.Quiet (f a)) : ports.Quiet (m >>= f) :=
  fun o => (h o).bind fun a => hf a o

theorem Quiet.catchAll {m : Method (OFMTunnelManager ε) Unit} (h : ports.Quiet m) :
    ports.Quiet (Method.catchAll m) := fun o => (h o).catchAll

theorem quiet_forEach {f : α → Method (OFMTunnelManager ε) Unit} (h : ∀ a, ports.Quiet (f a)) (as : List α) :
    ports.Quiet (Method.forEach f as) := fun o => Method.keeps_forEach (fun a => h a o) as

theorem quiet_get : ports.Quiet Method.get := fun _ => Method.keeps_get

theorem quiet_pure (a : α) : ports.Quiet (pure a) := fun _ => Method.keeps_pure

theorem quiet_nonNull (a : Option α) : ports.Quiet (Method.nonNull a) := fun _ => Method.keeps_nonNull a

theorem quiet_modify {g : OFMTunnelManager ε → OFMTunnelManager ε}
    (h : ∀ tm, ports.overlay (g tm) = ports.overlay tm) : ports.Quiet (Method.modify g) :=
  fun _ => Method.keeps_modify fun tm htm => (h tm).trans htm

theorem Quiet.ends {m : Method (OFMTunnelManager ε) α} (h : ports.Quiet m) (tm : OFMTunnelManager ε) :
    m.Ends tm (fun _ tm' => ports.overlay tm' = ports.overlay tm) fun tm' => ports.overlay tm' = ports.overlay tm :=
  Method.keeps_iff.1 (h _) tm rfl

variable (ports) in
theorem overlay_restPost (command : Command) (tm : OFMTunnelManager ε) :
    ports.overlay ((p.failing fails).restPost nodeIp command tm).2 =
      if fails nodeIp command = true then ports.overlay tm
      else { ports.overlay tm with port := ports.port (p.post nodeIp command tm.agents) } := by
  unfold overlay
  rw [Platform.restPost, Method.modify_apply]
  dsimp only [Platform.failing]
  split_ifs <;> rfl

theorem port_failing_get (nodeIp : String) (command : Command) (agents : ε) :
    ports.port ((p.failing fails).get nodeIp command agents).2 = ports.port agents := by
  unfold Platform.failing
  dsimp only
  split_ifs
  · rfl
  · exact ports.port_get nodeIp command agents

theorem quiet_restGet (nodeIp : String) (command : Command) :
    ports.Quiet ((p.failing fails).restGet nodeIp command) := by
  refine quiet_get.bind fun _ => (quiet_modify fun tm => ?_).bind fun _ => quiet_nonNull _
  exact Overlay.ext rfl (port_failing_get nodeIp command tm.agents)

theorem quiet_restPost (nodeIp : String) {command : Command} (h : ¬command.IsPort) :
    ports.Quiet ((p.failing fails).restPost nodeIp command) := by
  refine quiet_modify fun tm => (overlay_restPost ports command tm).trans ?_
  split_ifs
  · rfl
  · exact Overlay.ext rfl (ports.port_post nodeIp command tm.agents h)

theorem overlay_setNode {node node' : NodeDefinition} (hget : tm.nodesByIp.get nodeIp = some node) :
    ports.overlay (Platform.setNode nodeIp node' tm) = (ports.overlay tm).register nodeIp node'.contact := by
  refine Overlay.ext ?_ rfl
  funext nodeIp'
  show ((Platform.setNode nodeIp node' tm).nodesByIp.get nodeIp').map _ =
    Function.update (fun nodeIp => (tm.nodesByIp.get nodeIp).map _) nodeIp _ nodeIp'
  rw [Platform.get_setNode, Function.update_apply]
  split_ifs with heq
  · rw [heq, hget]
    rfl
  · rfl

variable (ports) in
theorem node_overlay_of_get {node : NodeDefinition} (hget : tm.nodesByIp.get nodeIp = some node) :
    (ports.overlay tm).node nodeIp = some node.contact := congrArg (Option.map _) hget

theorem quiet_atNode {m : Method NodeDefinition α} (h : ∀ c, m.Keeps fun node => node.contact = c) :
    ports.Quiet (Platform.atNode nodeIp m) := by
  refine fun o => Method.keeps_iff.2 fun tm htm => Platform.ends_atNode (fun node hget => ?_) fun _ => htm
  have hset : ∀ node' : NodeDefinition, node'.contact = node.contact →
      ports.overlay (Platform.setNode nodeIp node' tm) = o := by
    intro node' hnode
    rw [overlay_setNode hget, hnode, Overlay.register_of_node (node_overlay_of_get ports hget), htm]
  exact (Method.keeps_iff.1 (h node.contact) node rfl).imp (fun _ node' hnode => hset node' hnode) hset

theorem quiet_modifyNode {g : NodeDefinition → NodeDefinition} (h : ∀ node, (g node).contact = node.contact) :
    ports.Quiet (Platform.atNode nodeIp (Method.modify g)) :=
  quiet_atNode fun _ => Method.keeps_modify fun node hnode => (h node).trans hnode

theorem keeps_releaseVlan (vlanId : Option String) (networkId : String) (c : String × ℤ) :
    (NodeDefinition.releaseVlan vlanId networkId).Keeps fun node => node.contact = c := by
  refine (Method.keeps_nonNull _).bind fun vlan => Method.Keeps.bind (fun _ h => h) fun _ => ?_
  refine Method.keeps_get.bind fun node => (Method.keeps_nonNull _).bind fun _ => ?_
  refine (Method.keeps_nonNull _).bind fun _ => Method.Keeps.bind (fun _ h => h) fun _ => ?_
  refine (Method.keeps_nonNull _).bind fun _ => Method.Keeps.bind (fun _ h => h) fun _ => ?_
  exact (Method.keeps_nonNull _).bind fun _ => fun _ h => h

theorem quiet_floodVlan (nodeIp ofports : String) (used : HashMap String NetworkDefinition) (vlanId : String) :
    ports.Quiet ((p.failing fails).floodVlan nodeIp ofports used vlanId) := by
  refine (quiet_nonNull _).bind fun network => (quiet_nonNull _).bind fun tunId => ?_
  split_ifs
  · refine (quiet_restPost nodeIp (by exact not_false)).bind fun _ => (quiet_restPost nodeIp (by exact not_false)).bind fun _ => ?_
    exact quiet_atNode (keeps_releaseVlan _ _)
  · exact quiet_restPost nodeIp (by exact not_false)

theorem quiet_ofportsFlow (nodeIp : String) : ports.Quiet ((p.failing fails).ofportsFlow nodeIp) := by
  refine Quiet.catchAll (quiet_get.bind fun tm => (quiet_nonNull _).bind fun node => ?_)
  cases node.ofports with
  | none => exact quiet_pure ()
  | some ofports => exact quiet_forEach (quiet_floodVlan nodeIp ofports _) _

theorem quiet_setupBridge (nodeIp irisIp : String) : ports.Quiet ((p.failing fails).setupBridge nodeIp irisIp) := by
  refine Quiet.catchAll ((quiet_restGet _ _).bind fun patchIntOfport => ?_)
  refine Quiet.bind ?_ fun _ => quiet_forEach (fun flow => quiet_restPost nodeIp (by exact not_false)) _
  refine (quiet_restPost nodeIp (by exact not_false)).bind fun _ => ?_
  refine (quiet_restPost nodeIp (by exact not_false)).bind fun _ => ?_
  refine (quiet_restPost nodeIp (by exact not_false)).bind fun _ => ?_
  exact (quiet_restPost nodeIp (by exact not_false)).bind fun _ => quiet_pure ()

/-! ## A node is added -/

theorem overlay_put {node : NodeDefinition} :
    ports.overlay { tm with nodesByIp := tm.nodesByIp.put nodeIp node } =
      (ports.overlay tm).register nodeIp node.contact := by
  refine Overlay.ext (funext fun nodeIp' => ?_) rfl
  show ((tm.nodesByIp.put nodeIp node).get nodeIp').map _ =
    Function.update (fun nodeIp => (tm.nodesByIp.get nodeIp).map _) nodeIp _ nodeIp'
  rw [HashMap.get_put, Function.update_apply]
  split_ifs <;> rfl

variable (ports) in
/-- The port is added, if it is not there. -/
theorem ends_setupTunnelPort {portName localIpTun remoteIpTun : String} {E : OFMTunnelManager ε → Prop}
    (h : fails nodeIp (.addPort .tunneling portName localIpTun remoteIpTun) = true →
      ports.port tm.agents nodeIp portName) :
    ((p.failing fails).setupTunnelPort nodeIp portName localIpTun remoteIpTun).Ends tm
      (fun _ tm' => ports.overlay tm' = (ports.overlay tm).addPort nodeIp portName) E := by
  have hpost : ports.overlay ((p.failing fails).restPost nodeIp
      (.addPort .tunneling portName localIpTun remoteIpTun) tm).2 = (ports.overlay tm).addPort nodeIp portName := by
    refine (overlay_restPost ..).trans ?_
    split_ifs with hfails
    · exact (Overlay.addPort_of_port (o := ports.overlay tm) (h hfails)).symm
    · ext nodeIp' portName'
      · rfl
      · exact ports.port_addPort ..
  refine Method.Ends.catchAll (Method.ends_modify_bind ?_)
  refine Method.Ends.imp (Quiet.ends (?_ : ports.Quiet _) _) (fun _ _ h => h.trans hpost) fun _ h => h.trans hpost
  refine (quiet_restGet _ _).bind fun ofport => (quiet_restPost _ (by exact not_false)).bind fun _ => ?_
  have hadd : ports.Quiet (Platform.atNode nodeIp (Method.modify (NodeDefinition.addOfport ofport))) :=
    quiet_modifyNode fun _ => rfl
  exact hadd.bind fun _ => quiet_ofportsFlow nodeIp

variable (ports) in
theorem node_overlay {x : String × ℤ} (h : (ports.overlay tm).node nodeIp = some x) :
    ∃ node, tm.nodesByIp.get nodeIp = some node ∧ node.contact = x := Option.map_eq_some_iff.1 h

/-- One node more is connected with the new one. -/
theorem ends_connectNodes {remoteIpMgt : String} {y : String × ℤ} {done : List String}
    (hoverlay : ports.overlay tm = o.meet p.portName nodeIpMgt (nodeIpTun, now) done)
    (hremote : o.node remoteIpMgt = some y)
    (hadded : remoteIpMgt ≠ nodeIpMgt → ∃ name remoteName,
      p.tunnelName nodeIpTun = some name ∧ p.portName y = some remoteName ∧
        (fails nodeIpMgt (.addPort .tunneling remoteName nodeIpTun y.1) = true → o.port nodeIpMgt remoteName) ∧
        (fails remoteIpMgt (.addPort .tunneling name y.1 nodeIpTun) = true → o.port remoteIpMgt name)) :
    ((p.failing fails).connectNodes nodeIpMgt nodeIpTun remoteIpMgt).Ends tm
      (fun _ tm' => ports.overlay tm' = o.meet p.portName nodeIpMgt (nodeIpTun, now) (done ++ [remoteIpMgt]))
      fun _ => False := by
  obtain ⟨node, hget, rfl⟩ : ∃ node, tm.nodesByIp.get remoteIpMgt = some node ∧ node.contact = y :=
    node_overlay ports (hoverlay ▸ hremote)
  refine Method.ends_get_bind (Method.ends_nonNull_bind (fun remote hnode => ?_) fun hnone => ?_)
  · obtain rfl := Option.some.inj (hget.symm.trans hnode)
    split_ifs with hne
    · obtain ⟨name, remoteName, hname, hremoteName, hport, hremotePort⟩ := hadded hne
      refine Method.ends_nonNull_bind (fun n hn => ?_) fun hnone => ?_
      · obtain rfl := Option.some.inj (hremoteName.symm.trans hn)
        refine (ends_setupTunnelPort ports fun hfails => ?_).bind fun _ tm' h' => ?_
        · show (ports.overlay tm).port nodeIpMgt remoteName
          rw [hoverlay]
          exact .inl (hport hfails)
        · refine Method.ends_nonNull_bind (fun m hm => ?_) fun hnone => ?_
          · obtain rfl := Option.some.inj (hname.symm.trans hm)
            refine (ends_setupTunnelPort ports fun hfails => ?_).imp (fun _ tm'' h'' => ?_) fun _ h => h
            · show (ports.overlay tm').port remoteIpMgt name
              rw [h', hoverlay]
              exact .inl (.inl (hremotePort hfails))
            · rw [h'', h', hoverlay]
              exact Overlay.meet_append hremote hne hremoteName hname
          · cases hname.symm.trans hnone
      · cases hremoteName.symm.trans hnone
    · obtain rfl := not_not.1 hne
      exact hoverlay.trans Overlay.meet_self.symm
  · rw [hget] at hnone
    cases hnone

theorem ends_restGet (command : Command) : ((p.failing fails).restGet nodeIp command).Ends tm
    (fun line tm' => ((p.failing fails).get nodeIp command tm.agents).1.head? = some line ∧
      tm' = { tm with agents := ((p.failing fails).get nodeIp command tm.agents).2 })
    fun tm' => ((p.failing fails).get nodeIp command tm.agents).1.head? = none ∧
      tm' = { tm with agents := ((p.failing fails).get nodeIp command tm.agents).2 } :=
  Method.ends_get_bind (Method.ends_modify_bind (Method.ends_nonNull (fun _ h => ⟨h, rfl⟩) fun h => ⟨h, rfl⟩))

/-- A datapath id is found if it is answered. -/
theorem ends_datapathId (bridge : Bridge) : ((p.failing fails).datapathId nodeIp bridge).Ends tm
    (fun _ tm' => tm' = { tm with agents := ((p.failing fails).get nodeIp (.getDatapathId bridge) tm.agents).2 })
    fun tm' => tm' = { tm with agents := ((p.failing fails).get nodeIp (.getDatapathId bridge) tm.agents).2 } ∧
      (p.failing fails).answeredDpid nodeIp bridge tm.agents = none := by
  unfold Platform.datapathId Platform.answeredDpid
  refine Method.Ends.bind ((ends_restGet _).imp (fun _ _ h => h) ?_) ?_
  · rintro tm' ⟨hline, htm'⟩
    rw [hline]
    exact ⟨htm', rfl⟩
  · rintro line tm' ⟨hline, htm'⟩
    rw [hline]
    exact Method.ends_nonNull (fun _ _ => htm') fun hnone => ⟨htm', hnone⟩

theorem overlay_get {command : Command} :
    ports.overlay { tm with agents := ((p.failing fails).get nodeIp command tm.agents).2 } = ports.overlay tm :=
  Overlay.ext rfl (port_failing_get nodeIp command tm.agents)

variable (ports) in
theorem mem_keySet_of_overlay {y : String × ℤ} (h : (ports.overlay tm).node nodeIp = some y) :
    nodeIp ∈ tm.nodesByIp.keySet := by
  obtain ⟨node, hget, -⟩ := node_overlay ports h
  exact tm.nodesByIp.mem_keySet_iff.2 ⟨node, hget⟩

/-- A new node that has been connected with all others is in the mesh with them. -/
theorem Joins.fullMesh {done : List String} (hjoins : ports.Joins fails nodeIpMgt nodeIpTun tm)
    (h : ports.FullMesh tm) (hget : tm.nodesByIp.get nodeIpMgt = none)
    (hdone : ∀ nodeIp node, tm.nodesByIp.get nodeIp = some node → nodeIp ∈ done) :
    (((ports.overlay tm).register nodeIpMgt (nodeIpTun, now)).meet p.portName nodeIpMgt (nodeIpTun, now)
      done).FullMesh p.portName := by
  have hnone : (ports.overlay tm).node nodeIpMgt = none := congrArg (Option.map _) hget
  refine Overlay.FullMesh.join h hnone (fun portName hport => ?_) fun nodeIp y hy => ?_
  · obtain hself | ⟨nodeIp, node, hnode, hname⟩ := hjoins.old portName hport
    · exact ⟨nodeIpMgt, (nodeIpTun, now), Function.update_self .., hself⟩
    · refine ⟨nodeIp, node.contact, (Function.update_of_ne ?_ ..).trans (congrArg (Option.map _) hnode), hname⟩
      rintro rfl
      rw [hget] at hnode
      cases hnode
  · obtain ⟨node, hnode, rfl⟩ := node_overlay ports hy
    obtain ⟨name, remoteName, hname, hremoteName, -, -⟩ := hjoins.added nodeIp node hnode
    exact ⟨hdone nodeIp node hnode, ⟨remoteName, hremoteName⟩, name, hname⟩

/-- All nodes are connected with the new one. -/
theorem ends_connectAll (hjoins : ports.Joins fails nodeIpMgt nodeIpTun tm)
    (hoverlay : ports.overlay tm' = (ports.overlay tm).register nodeIpMgt (nodeIpTun, now)) :
    (Method.forEach ((p.failing fails).connectNodes nodeIpMgt nodeIpTun)
      (p.order.iter tm'.nodesByIp.keySet)).Ends tm'
      (fun _ tm'' => ports.overlay tm'' = ((ports.overlay tm).register nodeIpMgt (nodeIpTun, now)).meet p.portName
        nodeIpMgt (nodeIpTun, now) (p.order.iter tm'.nodesByIp.keySet)) fun _ => False := by
  refine (Method.ends_forEach (I := fun rest tm'' => ∃ done, p.order.iter tm'.nodesByIp.keySet = done ++ rest ∧
    ports.overlay tm'' = ((ports.overlay tm).register nodeIpMgt (nodeIpTun, now)).meet p.portName nodeIpMgt
      (nodeIpTun, now) done) (fun remoteIpMgt rest tm'' ⟨done, hkeys, hdone⟩ => ?_)
      ⟨[], rfl, hoverlay.trans Overlay.meet_nil.symm⟩).imp (fun _ tm'' ⟨done, hkeys, hdone⟩ => ?_) fun _ h => h
  · have hmem : remoteIpMgt ∈ tm'.nodesByIp.keySet := by
      rw [← p.order.mem_iter, hkeys]
      simp
    obtain ⟨remote, hremote⟩ := tm'.nodesByIp.mem_keySet_iff.1 hmem
    have hnode : ((ports.overlay tm).register nodeIpMgt (nodeIpTun, now)).node remoteIpMgt = some remote.contact := by
      rw [← hoverlay]
      exact congrArg (Option.map _) hremote
    refine (ends_connectNodes hdone hnode fun hne => ?_).imp (fun _ _ h => ⟨done ++ [remoteIpMgt], ?_, h⟩)
      fun _ h => h
    · obtain ⟨node, hget, hcontact⟩ := node_overlay ports ((Function.update_of_ne hne ..).symm.trans hnode)
      obtain ⟨name, remoteName, hname, hremoteName, hport, hremotePort⟩ := hjoins.added remoteIpMgt node hget
      rw [← hcontact]
      exact ⟨name, remoteName, hname, hremoteName, hport, hremotePort⟩
    · rw [hkeys, List.append_assoc, List.singleton_append]
  · rw [List.append_nil] at hkeys
    rw [hkeys]
    exact hdone

theorem one_lt_length {a b : String} {l : List String} (hne : a ≠ b) (ha : a ∈ l) (hb : b ∈ l) : 1 < l.length := by
  match l with
  | [] => cases ha
  | [c] => exact absurd ((List.mem_singleton.1 ha).trans (List.mem_singleton.1 hb).symm) hne
  | c :: d :: l => simp

theorem ends_registerNode {nodeName nodeType irisIp : String} (hjoins : ports.Joins fails nodeIpMgt nodeIpTun tm)
    (h : ports.FullMesh tm) (hget : tm.nodesByIp.get nodeIpMgt = none) :
    ((p.failing fails).registerNode nodeIpMgt nodeIpTun nodeName nodeType irisIp now).Ends tm
      (fun _ => ports.FullMesh) ports.FullMesh := by
  -- a call may stop at a datapath id if there are no other nodes
  have halone : (∀ nodeIp node, tm.nodesByIp.get nodeIp ≠ some node) → ∀ tm' : OFMTunnelManager ε,
      ports.overlay tm' = (ports.overlay tm).register nodeIpMgt (nodeIpTun, now) → ports.FullMesh tm' := by
    intro halone tm' hoverlay
    unfold FullMesh
    rw [hoverlay, ← Overlay.meet_nil (o := Overlay.register ..)]
    exact hjoins.fullMesh h hget fun nodeIp node hnode => absurd hnode (halone nodeIp node)
  refine Method.ends_modify_bind ?_
  have hput : ports.overlay
      { tm with nodesByIp := tm.nodesByIp.put nodeIpMgt (.new nodeIpMgt nodeIpTun nodeName nodeType now) } =
        (ports.overlay tm).register nodeIpMgt (nodeIpTun, now) := overlay_put
  refine Method.Ends.bind ((ends_datapathId _).imp (fun _ _ h => h) ?_) ?_
  · rintro tm₁ ⟨rfl, hnone⟩
    exact halone (fun nodeIp node hnode => (hjoins.answers nodeIp node hnode).1 hnone) _ (overlay_get.trans hput)
  rintro intDpid tm₁ rfl
  refine Method.Ends.bind ((ends_datapathId _).imp (fun _ _ h => h) ?_) ?_
  · rintro tm₂ ⟨rfl, hnone⟩
    exact halone (fun nodeIp node hnode => (hjoins.answers nodeIp node hnode).2 hnone) _
      (overlay_get.trans (overlay_get.trans hput))
  rintro tunDpid tm₂ rfl
  refine Method.ends_modify_bind ?_
  refine Method.Ends.bind (Q := fun _ tm' => ports.overlay tm' =
    (ports.overlay tm).register nodeIpMgt (nodeIpTun, now)) ?_ fun _ tm₃ hoverlay => ?_
  · exact (quiet_setupBridge nodeIpMgt irisIp _ _ rfl).trans (overlay_get.trans (overlay_get.trans hput))
  have hself : nodeIpMgt ∈ tm₃.nodesByIp.keySet := by
    refine mem_keySet_of_overlay ports (y := (nodeIpTun, now)) ?_
    rw [hoverlay]
    exact Function.update_self ..
  have hother : ∀ nodeIp node, tm.nodesByIp.get nodeIp = some node →
      nodeIp ≠ nodeIpMgt ∧ nodeIp ∈ tm₃.nodesByIp.keySet := by
    intro nodeIp node hnode
    have hne : nodeIp ≠ nodeIpMgt := by
      rintro rfl
      rw [hget] at hnode
      cases hnode
    refine ⟨hne, mem_keySet_of_overlay ports (y := node.contact) ?_⟩
    rw [hoverlay]
    exact (Function.update_of_ne hne ..).trans (congrArg (Option.map _) hnode)
  refine Method.ends_get_bind ?_
  split_ifs with hlength
  · refine (ends_connectAll hjoins hoverlay).imp (fun _ tm₄ h₄ => ?_) fun _ h => h.elim
    unfold FullMesh
    rw [h₄]
    exact hjoins.fullMesh h hget fun nodeIp node hnode => (p.order.mem_iter).2 (hother nodeIp node hnode).2
  · refine halone (fun nodeIp node hnode => hlength ?_) tm₃ hoverlay
    obtain ⟨hne, hmem⟩ := hother nodeIp node hnode
    exact one_lt_length hne hmem hself

/-- A node that is added again has the same tunnels. -/
theorem keeps_renew (nodeName nodeType : String) : Method.Keeps ports.FullMesh (Platform.atNode nodeIpMgt
    (Method.modify fun node => { node with currentTime := now, nodeName, nodeType })) := by
  refine Method.keeps_iff.2 fun tm htm => Platform.ends_atNode (fun node hget => ?_) fun _ => htm
  refine Method.ends_modify ?_
  unfold FullMesh
  rw [overlay_setNode hget]
  exact Overlay.FullMesh.renew htm (node_overlay_of_get ports hget) rfl

theorem fullMesh_addTunnel {nodeName nodeType irisIp : String}
    (hjoins : tm.nodesByIp.get nodeIpMgt = none → ports.Joins fails nodeIpMgt nodeIpTun tm) (h : ports.FullMesh tm) :
    ports.FullMesh ((p.failing fails).addTunnel nodeIpMgt nodeIpTun nodeName nodeType irisIp now tm).2 := by
  refine Method.ends_iff.1 (Method.Ends.catchAll (Method.ends_get_bind ?_))
  have hrenew := Method.keeps_iff.1
    (keeps_renew nodeName nodeType : Method.Keeps ports.FullMesh (Platform.atNode nodeIpMgt
      (Method.modify fun node => { node with currentTime := now, nodeName, nodeType })))
  split_ifs with hnew
  · refine (ends_registerNode (hjoins ?_) h ?_).bind fun _ tm' h' => hrenew tm' h'
    · simpa [HashMap.containsKey] using hnew
    · simpa [HashMap.containsKey] using hnew
  · exact hrenew tm h

/-! ## Nodes go -/

/-- The port is there, and is deleted. -/
theorem ends_disconnectNode {name : String} {node : NodeDefinition} (hget : tm.nodesByIp.get nodeIp = some node)
    (hport : ports.port tm.agents nodeIp name) (hofport : fails nodeIp (.getOfport name) = false)
    (hdelPort : fails nodeIp (.delPort .tunneling name) = false) :
    ((p.failing fails).disconnectNode name nodeIp).Ends tm
      (fun _ tm' => ports.overlay tm' = (ports.overlay tm).delPort nodeIp name) fun _ => False := by
  refine Method.Ends.bind ((ends_restGet _).imp (fun _ _ h => h) ?_) ?_
  · rintro tm' ⟨hline, -⟩
    refine ports.ofport nodeIp name tm.agents hport (List.head?_eq_none_iff.1 ?_)
    simpa [Platform.failing, hofport] using hline
  rintro inPort tm' ⟨-, rfl⟩
  have hpost : ∀ tm' : OFMTunnelManager ε, ports.overlay tm' = ports.overlay tm →
      ports.overlay ((p.failing fails).restPost nodeIp (.delPort .tunneling name) tm').2 =
        (ports.overlay tm).delPort nodeIp name := by
    intro tm' hoverlay
    rw [overlay_restPost, if_neg (by rw [hdelPort]; decide), ← hoverlay]
    ext nodeIp' name'
    · rfl
    · exact ports.port_delPort ..
  refine Method.ends_modify_bind (Method.ends_modify_bind ?_)
  refine Method.Ends.bind (Q := fun _ tm' => ports.overlay tm' = (ports.overlay tm).delPort nodeIp name) ?_
    fun _ tm' h' => quiet_ofportsFlow nodeIp _ tm' h'
  refine Platform.ends_atNode (fun node' hget' => Method.ends_modify ?_) fun hnone => ?_
  · rw [overlay_setNode hget']
    refine (Overlay.register_of_node (node_overlay_of_get ports hget')).trans ?_
    exact quiet_restPost nodeIp (by exact not_false) _ _ (hpost _ overlay_get)
  · cases hget.symm.trans hnone

variable (ports) in
/-- When a node goes, all others lose their port to it. -/
theorem ends_disconnectAll {name : String} {tm₁ : OFMTunnelManager ε}
    (hall : ∀ nodeIp' node', tm₁.nodesByIp.get nodeIp' = some node' → ports.port tm₁.agents nodeIp' name ∧
      fails nodeIp' (.getOfport name) = false ∧ fails nodeIp' (.delPort .tunneling name) = false) :
    (Method.forEach ((p.failing fails).disconnectNode name) (p.order.iter tm₁.nodesByIp.keySet)).Ends tm₁
      (fun _ tm' => ports.overlay tm' = (ports.overlay tm₁).part name (p.order.iter tm₁.nodesByIp.keySet))
      fun _ => False := by
  have hnodup : (p.order.iter tm₁.nodesByIp.keySet).Nodup := p.order.nodup_iter.2 tm₁.nodesByIp.nodup_keySet
  refine (Method.ends_forEach (I := fun rest tm' => ∃ done, p.order.iter tm₁.nodesByIp.keySet = done ++ rest ∧
    ports.overlay tm' = (ports.overlay tm₁).part name done) (fun nodeIp rest tm' ⟨done, hkeys, hdone⟩ => ?_)
      ⟨[], rfl, Overlay.part_nil.symm⟩).imp (fun _ tm' ⟨done, hkeys, hdone⟩ => ?_) fun _ h => h
  · have hmem : nodeIp ∈ tm₁.nodesByIp.keySet := by
      rw [← p.order.mem_iter, hkeys]
      simp
    obtain ⟨node, hnode⟩ := tm₁.nodesByIp.mem_keySet_iff.1 hmem
    obtain ⟨hport, hofport, hdelPort⟩ := hall nodeIp node hnode
    have hnode' : (ports.overlay tm').node nodeIp = some node.contact := by
      rw [hdone]
      exact node_overlay_of_get ports hnode
    obtain ⟨node', hget, -⟩ := node_overlay ports hnode'
    have hport' : (ports.overlay tm').port nodeIp name := by
      rw [hdone]
      refine ⟨hport, fun ⟨_, hmem'⟩ => ?_⟩
      rw [hkeys] at hnodup
      exact (List.nodup_append.1 hnodup).2.2 nodeIp hmem' nodeIp List.mem_cons_self rfl
    refine (ends_disconnectNode hget hport' hofport hdelPort).imp (fun _ tm'' h'' => ⟨done ++ [nodeIp], ?_, ?_⟩)
      fun _ h => h
    · rw [hkeys, List.append_assoc, List.singleton_append]
    · rw [h'', hdone]
      exact Overlay.part_append
  · rw [List.append_nil] at hkeys
    rw [hkeys]
    exact hdone

/-- The nodes that are left behind the removal of a node have not all expired. -/
theorem ends_removeNode (h : ports.FullMesh tm)
    (hall : ∀ node name, tm.nodesByIp.get nodeIp = some node → Expired now node →
      p.tunnelName node.nodeIpTun = some name → ∀ nodeIp' node', tm.nodesByIp.get nodeIp' = some node' →
        nodeIp' ≠ nodeIp → p.tunnelName node'.nodeIpTun ≠ some name ∧ fails nodeIp' (.getOfport name) = false ∧
          fails nodeIp' (.delPort .tunneling name) = false) :
    ((p.failing fails).removeNode now nodeIp).Ends tm
      (fun _ tm' => ports.FullMesh tm' ∧ ∀ nodeIp' y, (ports.overlay tm').node nodeIp' = some y →
        (ports.overlay tm).node nodeIp' = some y ∧ (nodeIp' = nodeIp → ¬Platform.deleteTimeGap ≤ now - y.2))
      ports.FullMesh := by
  refine Method.ends_get_bind (Method.ends_nonNull_bind (fun node hget => ?_) fun _ => h)
  split_ifs with hexpired
  · refine Method.ends_nonNull_bind (fun name hname => ?_) fun _ => h
    refine Method.ends_modify_bind (Method.ends_get_bind ?_)
    have hremoved : ∀ {tm₁ : OFMTunnelManager ε}, tm₁.nodesByIp = tm.nodesByIp.remove nodeIp →
        tm₁.agents = tm.agents → ports.overlay tm₁ = (ports.overlay tm).unregister nodeIp := by
      intro tm₁ hnodes hagents
      refine Overlay.ext ?_ (congrArg ports.port hagents)
      funext nodeIp'
      show (tm₁.nodesByIp.get nodeIp').map _ = Function.update (fun nodeIp => (tm.nodesByIp.get nodeIp).map _) _ _ _
      rw [hnodes, HashMap.get_remove, Function.update_apply]
      split_ifs <;> rfl
    have hleft : ∀ nodeIp' node', (tm.nodesByIp.remove nodeIp).get nodeIp' = some node' →
        nodeIp' ≠ nodeIp ∧ tm.nodesByIp.get nodeIp' = some node' := by
      intro nodeIp' node' hget'
      rw [HashMap.get_remove] at hget'
      split_ifs at hget' with hne
      exact ⟨hne, hget'⟩
    refine (ends_disconnectAll ports fun nodeIp' node' hget' => ?_).imp (fun _ tm' h' => ?_) fun _ h => h.elim
    · obtain ⟨hne, hget''⟩ := hleft nodeIp' node' hget'
      obtain ⟨n, hn, hport⟩ := h.mesh nodeIp' nodeIp _ _ (node_overlay_of_get ports hget'')
        (node_overlay_of_get ports hget) hne
      obtain rfl := Option.some.inj (hn.symm.trans hname)
      exact ⟨hport, (hall node n hget hexpired hname nodeIp' node' hget'' hne).2⟩
    · have hpart : ports.overlay tm' = ((ports.overlay tm).unregister nodeIp).part name
          (p.order.iter (tm.nodesByIp.remove nodeIp).keySet) :=
        h'.trans (congrArg (Overlay.part · name _) (hremoved rfl rfl))
      constructor
      · unfold FullMesh
        rw [hpart]
        refine Overlay.FullMesh.leave h (node_overlay_of_get ports hget) hname fun nodeIp' y hy hne => ?_
        obtain ⟨node', hget', rfl⟩ := node_overlay ports hy
        refine ⟨?_, (hall node name hget hexpired hname nodeIp' node' hget' hne).1⟩
        rw [p.order.mem_iter]
        refine HashMap.mem_keySet_iff _ |>.2 ⟨node', ?_⟩
        exact (HashMap.get_remove ..).trans ((if_neg hne).trans hget')
      · intro nodeIp' y hy
        rw [hpart] at hy
        change Function.update (ports.overlay tm).node nodeIp none nodeIp' = some y at hy
        rw [Function.update_apply] at hy
        split_ifs at hy with hne
        exact ⟨hy, fun heq => absurd heq hne⟩
  · refine ⟨h, fun nodeIp' y hy => ⟨hy, ?_⟩⟩
    rintro rfl
    obtain rfl := Option.some.inj ((node_overlay_of_get ports hget).symm.trans hy)
    exact hexpired

theorem fullMesh_delTunnel (hleaves : Leaves p fails now tm) (h : ports.FullMesh tm) :
    ports.FullMesh ((p.failing fails).delTunnel now tm).2 := by
  refine Method.ends_iff.1 (Method.Ends.catchAll (Method.ends_get_bind ?_))
  have hnodup : (p.order.iter tm.nodesByIp.keySet).Nodup := p.order.nodup_iter.2 tm.nodesByIp.nodup_keySet
  refine (Method.ends_forEach (I := fun rest tm' => ∃ pre, p.order.iter tm.nodesByIp.keySet = pre ++ rest ∧
    ports.FullMesh tm' ∧ ∀ nodeIp y, (ports.overlay tm').node nodeIp = some y →
      (ports.overlay tm).node nodeIp = some y ∧ (nodeIp ∈ pre → ¬Platform.deleteTimeGap ≤ now - y.2))
    (fun nodeIp rest tm' ⟨pre, hkeys, hmesh, hpre⟩ => ?_)
    ⟨[], rfl, h, fun _ _ hy => ⟨hy, nofun⟩⟩).imp (fun _ tm' ⟨_, _, h', _⟩ => h') fun _ h => h
  -- a node that is still registered has the address and the time that it had in the beginning
  have hbefore : ∀ nodeIp' node', tm'.nodesByIp.get nodeIp' = some node' → ∃ node,
      tm.nodesByIp.get nodeIp' = some node ∧ node.contact = node'.contact ∧
        (nodeIp' ∈ pre → ¬Expired now node) := by
    intro nodeIp' node' hget'
    obtain ⟨hnode, hleft⟩ := hpre nodeIp' _ (node_overlay_of_get ports hget')
    obtain ⟨node, hget, hcontact⟩ := node_overlay ports hnode
    refine ⟨node, hget, hcontact, fun hmem => ?_⟩
    rw [← hcontact] at hleft
    exact hleft hmem
  refine (ends_removeNode hmesh fun node' name hget' hexpired hname nodeIp' other' hother' hne => ?_).imp
    (fun _ tm'' ⟨hmesh', hnode'⟩ => ⟨pre ++ [nodeIp], ?_, hmesh', fun nodeIp' y hy => ?_⟩) fun _ h' => h'
  · obtain ⟨node, hget, hcontact, -⟩ := hbefore nodeIp node' hget'
    obtain ⟨other, hother, hcontact', hnot⟩ := hbefore nodeIp' other' hother'
    injection hcontact with htun htime
    injection hcontact' with htun' htime'
    rw [← htun']
    refine hleaves pre nodeIp rest hkeys node name hget ?_ (htun ▸ hname) nodeIp' other hother hne hnot
    unfold Expired
    rw [htime]
    exact hexpired
  · rw [hkeys, List.append_assoc, List.singleton_append]
  · obtain ⟨hy', hself⟩ := hnode' nodeIp' y hy
    obtain ⟨hy'', hmem⟩ := hpre nodeIp' y hy'
    refine ⟨hy'', fun h' => ?_⟩
    rw [List.mem_append, List.mem_singleton] at h'
    exact h'.elim hmem hself

/-! ## Runs -/

theorem fullMesh_step (call : MeshCall) (h : ports.FullMesh tm) (hworks : ports.Works tm call) :
    ports.FullMesh (p.meshStep tm call) := by
  obtain ⟨operation, fails⟩ := call
  cases operation with
  | addTunnel nodeIpMgt nodeIpTun nodeName nodeType irisIp now => exact fullMesh_addTunnel hworks h
  | delTunnel now => exact fullMesh_delTunnel hworks h

variable (ports) in
/-- There is a full mesh in all states of a run in which each call does all that it has to do. -/
theorem fullMesh_of_works {agents : ε} {calls : List MeshCall}
    (h : Machine.Clean p.meshStep (fun tm call => ¬ports.Works tm call) (.initial agents) calls)
    (pre post : List MeshCall) (hcalls : calls = pre ++ post) :
    ports.FullMesh (Machine.run p.meshStep (.initial agents) pre) := by
  subst hcalls
  refine h.prefix.invariant (fun _ call h hworks => fullMesh_step call h (not_not.1 hworks)) ?_
  exact ⟨nofun, nofun⟩

end TunnelPorts

/-! ## Two nodes -/

/-- Agents with `ovs-vsctl`: the state is the list of the tunnel ports. -/
def ovs : Platform (List (String × String)) where
  tunnelType := "vxlan"
  vxlanPortNumber := "4789"
  portNumber := "6633"
  getAddress name :=
    if name = "192.168.0.1" then some [192, 168, 0, 1] else if name = "192.168.0.2" then some [192, 168, 0, 2] else none
  order := .insertion
  post nodeIp
    | .addPort .tunneling portName _ _, ports =>
      if (nodeIp, portName) ∈ ports then ports else ports ++ [(nodeIp, portName)]
    | .delPort .tunneling portName, ports => ports.filter (· ≠ (nodeIp, portName))
    | _, ports => ports
  get nodeIp
    | .getDatapathId .integration, ports =>
      ([if nodeIp = "10.0.0.1" then "\"00000000000000a1\"" else "\"00000000000000a2\""], ports)
    | .getDatapathId .tunneling, ports =>
      ([if nodeIp = "10.0.0.1" then "\"00000000000000b1\"" else "\"00000000000000b2\""], ports)
    | .getOfport interface, ports =>
      (if interface = TunnelFlow.tunPeerPatchPort then ["1"]
        else if (nodeIp, interface) ∈ ports then [toString (ports.idxOf (nodeIp, interface) + 2)] else [], ports)
    | _, ports => ([], ports)

def ovsPorts : TunnelPorts ovs where
  port ports nodeIp portName := (nodeIp, portName) ∈ ports
  port_get nodeIp command ports := by
    match command with
    | .getDatapathId .integration | .getDatapathId .tunneling => rfl
    | .getOfport _ | .delController _ | .setController .. | .addPort .. | .delPort .. | .addFlow .. | .delFlows .. => rfl
  port_post nodeIp command ports h := by
    match command with
    | .addPort .tunneling .. | .delPort .tunneling _ => exact absurd trivial h
    | .addPort .integration .. | .delPort .integration _ => rfl
    | .getDatapathId _ | .getOfport _ | .delController _ | .setController .. | .addFlow .. | .delFlows .. => rfl
  port_addPort nodeIp portName localIpTun remoteIpTun ports nodeIp' portName' := by
    show (nodeIp', portName') ∈ (if _ then _ else _) ↔ _
    split_ifs with hmem
    · refine ⟨.inl, ?_⟩
      rintro (hmem' | ⟨rfl, rfl⟩)
      · exact hmem'
      · exact hmem
    · simp
  port_delPort nodeIp portName ports nodeIp' portName' := by
    show (nodeIp', portName') ∈ ports.filter _ ↔ _
    rw [List.mem_filter, decide_eq_true_iff, ne_eq, Prod.mk.injEq]
  ofport nodeIp portName ports hmem := by
    show (if portName = _ then _ else if (nodeIp, portName) ∈ ports then _ else _) ≠ []
    rw [if_pos hmem]
    split_ifs <;> exact List.cons_ne_nil _ _

def addFirst : MeshCall :=
  ⟨.addTunnel "10.0.0.1" "192.168.0.1" "host1" "compute" "10.0.0.9" 0, fun _ _ => false⟩

/-- Some requests to the second node fail. -/
def addSecond (fails : Command → Bool) : MeshCall :=
  ⟨.addTunnel "10.0.0.2" "192.168.0.2" "host2" "compute" "10.0.0.9" 0,
    fun nodeIp command => nodeIp = "10.0.0.2" && fails command⟩

/-- The number of a port is not answered. -/
def withoutOfport (command : Command) : Bool := command = .getOfport "vxlan-c0a80001"

/-- The first node has been added. -/
def oneNode : OFMTunnelManager (List (String × String)) := ovs.meshStep (.initial []) addFirst

theorem agents_oneNode : oneNode.agents = [] := by decide +kernel

theorem get_oneNode {nodeIp : String} {node : NodeDefinition} (hget : oneNode.nodesByIp.get nodeIp = some node) :
    nodeIp = "10.0.0.1" ∧ node.nodeIpTun = "192.168.0.1" := by
  have hkeys : oneNode.nodesByIp.keySet = ["10.0.0.1"] := by decide +kernel
  have hmem := (HashMap.mem_keySet_iff _).2 ⟨node, hget⟩
  rw [hkeys, List.mem_singleton] at hmem
  subst hmem
  have htun : (oneNode.nodesByIp.get "10.0.0.1").map (·.nodeIpTun) = some "192.168.0.1" := by decide +kernel
  rw [hget] at htun
  exact ⟨rfl, Option.some.inj htun⟩

theorem works_first : ovsPorts.Works (.initial []) addFirst := fun _ => ⟨nofun, nofun, nofun⟩

theorem answersDpids_addSecond : (ovs.failing (addSecond withoutOfport).fails).AnswersDpids "10.0.0.2" [] := by
  constructor
  · decide +kernel
  · decide +kernel

theorem works_second : ovsPorts.Works oneNode (addSecond withoutOfport) := by
  intro _
  refine ⟨fun portName hport => ?_, fun _ _ _ => ?_, fun nodeIp node hget => ?_⟩
  · rw [agents_oneNode] at hport
    cases hport
  · rw [agents_oneNode]
    exact answersDpids_addSecond
  · obtain ⟨rfl, htun⟩ := get_oneNode hget
    rw [htun]
    refine ⟨"vxlan-c0a80002", "vxlan-c0a80001", ?_, ?_, ?_, ?_⟩
    · decide +kernel
    · decide +kernel
    · exact nofun
    · exact nofun

theorem clean_two : Machine.Clean ovs.meshStep (fun tm call => ¬ovsPorts.Works tm call) (.initial [])
    [addFirst, addSecond withoutOfport] :=
  ⟨not_not.2 works_first, not_not.2 works_second, trivial⟩

theorem fullMesh_two :
    (Machine.run ovs.meshStep (.initial []) [addFirst, addSecond withoutOfport]).nodesByIp.keySet =
        ["10.0.0.2", "10.0.0.1"] ∧
      ovsPorts.FullMesh (Machine.run ovs.meshStep (.initial []) [addFirst, addSecond withoutOfport]) :=
  ⟨by decide +kernel, ovsPorts.fullMesh_of_works clean_two _ [] (List.append_nil _).symm⟩

/-- Each call in which a request fails is repeated later, without a request that fails. -/
def Repeated (calls : List MeshCall) : Prop :=
  ∀ pre call post, calls = pre ++ call :: post → (∃ nodeIp command, call.fails nodeIp command = true) →
    ∃ call' ∈ post, call'.operation = call.operation ∧ ∀ nodeIp command, call'.fails nodeIp command = false

/-- The datapath id of the second node is not answered at first, and the node is added again. -/
def addAgain : List MeshCall :=
  [addFirst, addSecond fun command => command = .getDatapathId .integration, addSecond fun _ => false]

theorem repeated_addAgain : Repeated addAgain := by
  rintro pre call post hcalls ⟨nodeIp, command, hfails⟩
  have hlast : ∀ nodeIp command, (addSecond fun _ => false).fails nodeIp command = false :=
    fun _ _ => Bool.and_false _
  match pre with
  | [] =>
    obtain rfl := (List.cons.inj hcalls).1
    cases hfails
  | [first] =>
    obtain ⟨-, hcalls⟩ := List.cons.inj hcalls
    obtain ⟨rfl, rfl⟩ := List.cons.inj hcalls
    exact ⟨_, List.mem_singleton_self _, rfl, hlast⟩
  | [first, second] =>
    obtain ⟨-, hcalls⟩ := List.cons.inj hcalls
    obtain ⟨-, hcalls⟩ := List.cons.inj hcalls
    obtain ⟨rfl, -⟩ := List.cons.inj hcalls
    rw [hlast] at hfails
    cases hfails
  | first :: second :: third :: pre =>
    have hlength := congrArg List.length hcalls
    simp [addAgain] at hlength

theorem not_fullMesh : ¬∀ calls : List MeshCall, Repeated calls →
    ovsPorts.FullMesh (Machine.run ovs.meshStep (.initial []) calls) := by
  intro h
  have hports : (Machine.run ovs.meshStep (.initial []) addAgain).agents = [] := by decide +kernel
  have hfirst : (ovsPorts.overlay (Machine.run ovs.meshStep (.initial []) addAgain)).node "10.0.0.1" =
      some ("192.168.0.1", 0) := by decide +kernel
  have hsecond : (ovsPorts.overlay (Machine.run ovs.meshStep (.initial []) addAgain)).node "10.0.0.2" =
      some ("192.168.0.2", 0) := by decide +kernel
  obtain ⟨portName, -, hport⟩ := (h addAgain repeated_addAgain).mesh _ _ _ _ hfirst hsecond (by decide)
  have hmem : ("10.0.0.1", portName) ∈ (Machine.run ovs.meshStep (.initial []) addAgain).agents := hport
  rw [hports] at hmem
  cases hmem

end Torpedo
