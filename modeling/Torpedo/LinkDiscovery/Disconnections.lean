import Torpedo.Controller.Modules
import Torpedo.LinkDiscovery.PortIndex

/-!
# Links of switches that have gone

`OFMLinkDiscovery` as a module of the controller. It keeps the links of a switch for a while after its
connection has ended, and forgets the end when the switch comes back. A cleaning takes no link between
switches that are connected, in every run in which no connection ends while another one has the same
datapath id.
-/

namespace Torpedo

/-- A switch that has gone: when, and with which ports. -/
structure Disconnection where
  timestamp : Int
  switchId : Dpid
  ports : List OFPort
deriving DecidableEq

/-- `OFProtocol.getPortInformations`. -/
def OFProtocol.getPortInformations (p : OFProtocol) (sw : ℕ) : List OFPortDesc :=
  match p.portInformations.get sw with
  | some inner => inner.keySet.filterMap inner.get
  | none => []

/-- `OFProtocol.getEnabledPortNumbers`. -/
def OFProtocol.getEnabledPortNumbers (p : OFProtocol) (sw : ℕ) : List OFPort :=
  ((p.getPortInformations sw).filter OFPortDesc.portEnabled).map OFPortDesc.portNo

structure OFMLinkDiscovery where
  links : Links
  /-- The set of disconnections, in the order of their switch ids. -/
  disconnections : List Disconnection
  /-- What the clock shows, in milliseconds. -/
  clock : Int

namespace OFMLinkDiscovery

open Controller

def start : OFMLinkDiscovery := ⟨.empty, [], 0⟩

/-! ## The module -/

/-- `add` of the set of disconnections, which goes by switch ids and leaves an element that it has. -/
def addDisconnection (dcn : Disconnection) : List Disconnection → List Disconnection
  | [] => [dcn]
  | d :: ds =>
    if dcn.switchId < d.switchId then dcn :: d :: ds
    else if d.switchId < dcn.switchId then d :: addDisconnection dcn ds
    else d :: ds

/-- `removeAll` of the set of disconnections. -/
def removeAll (ds removed : List Disconnection) : List Disconnection :=
  ds.filter fun d => d.switchId ∉ removed.map Disconnection.switchId

/-- `cleanDisconnectedSwitches`. -/
def cleanDisconnectedSwitches (ord : HashOrder) (m : OFMLinkDiscovery) : OFMLinkDiscovery :=
  let toRemove := m.disconnections.filter fun dcn => 10000 < m.clock - dcn.timestamp
  { m with
    links := toRemove.foldl (fun s dcn => s.deleteSwitch ord dcn.switchId (ord.iter dcn.ports)) m.links
    disconnections := removeAll m.disconnections toRemove }

/-- `handleHandshakedEvent`. -/
def handleHandshakedEvent (s : Controller OFMLinkDiscovery) (c : ℕ) : HandlerResult × OFMLinkDiscovery :=
  match s.getSwitch c, s.getId c with
  | none, _ => (.returned false, s.modules)
  | some _, none => (.thrown, s.modules)
  | some sw, some id =>
    let links := (s.protocol.getEnabledPortNumbers sw).foldl (fun l p => l.processNewPort id p)
      s.modules.links
    let reConnected := s.modules.disconnections.filter fun d => d.switchId = id
    (.returned true, { s.modules with
      links := { links with updates := links.updates ++ [.switch id .switchUpdated] }
      disconnections := removeAll s.modules.disconnections reConnected })

/-- `handleDisconnect`. Without an id there is nothing to add. -/
def handleDisconnect (s : Controller OFMLinkDiscovery) (c : ℕ) : OFMLinkDiscovery :=
  match s.getSwitch c, s.getId c with
  | some sw, some id =>
    let ports := (s.protocol.getPortInformations sw).foldl (fun ports p => setAdd ports p.portNo) []
    { s.modules with
      disconnections := addDisconnection ⟨s.modules.clock, id, ports⟩ s.modules.disconnections }
  | _, _ => s.modules

/-- The handlers of the controller. `lldp` tells which LLDP packet is in a packet-in, if any. -/
def handlers (ord : HashOrder) (lldp : Controller OFMLinkDiscovery → ℕ → OFMessage → Option LldpPacket) :
    Handlers OFMLinkDiscovery where
  handlePacketIn s c m :=
    match lldp s c m with
    | none => (.returned true, s.modules, [])
    | some p => (.returned true, { s.modules with links := s.modules.links.handleLldp p }, [])
  handleGeneric s c m :=
    match m with
    | .portStatus ps =>
      match s.getId c with
      | none => (.returned true, s.modules, [])
      | some id => (.returned true,
        { s.modules with links := s.modules.links.handlePortStatus ord id ps }, [])
    | .featuresReply .. =>
      let r := handleHandshakedEvent s c
      (r.1, r.2, [])
    | _ => (.returned true, s.modules, [])
  processDisconnect := [fun s c => (false, handleDisconnect s c)]

/-! ## Runs -/

inductive Event
  | controller (e : Controller.Event)
  /-- The clock shows another time. -/
  | clock (now : Int)
  | timeoutLinks (curTime : Int)
  | clean

variable (ord : HashOrder) (lldp : Controller OFMLinkDiscovery → ℕ → OFMessage → Option LldpPacket)

def step (s : Controller OFMLinkDiscovery) : Event → Controller OFMLinkDiscovery
  | .controller e => s.handle (handlers ord lldp) e
  | .clock now => { s with modules := { s.modules with clock := now } }
  | .timeoutLinks curTime =>
    { s with modules := { s.modules with links := s.modules.links.timeoutLinks ord curTime } }
  | .clean => { s with modules := s.modules.cleanDisconnectedSwitches ord }

/-- A connection ends while another one has the same id. -/
def EndsShared (s : Controller OFMLinkDiscovery) : Event → Prop
  | .controller (.disconnected c) => ∃ id, s.getId c = some id ∧ ∃ c' ≠ c, s.getId c' = some id
  | _ => False

/-- A cleaning takes the link. -/
def Cleans (m : OFMLinkDiscovery) (lt : Link) : Prop :=
  m.links.Stored lt ∧ ¬(m.cleanDisconnectedSwitches ord).links.Stored lt

/-! ## The disconnections after an event -/

variable {ord lldp} {s : Controller OFMLinkDiscovery} {c : ℕ} {m : OFMessage}

theorem mem_addDisconnection {dcn x : Disconnection} {ds : List Disconnection}
    (hx : x ∈ addDisconnection dcn ds) : x = dcn ∨ x ∈ ds := by
  induction ds with
  | nil => exact .inl (List.mem_singleton.1 hx)
  | cons d ds ih =>
    unfold addDisconnection at hx
    split_ifs at hx
    · exact List.mem_cons.1 hx
    · obtain rfl | hx := List.mem_cons.1 hx
      · exact .inr List.mem_cons_self
      · exact (ih hx).imp_right (List.mem_cons_of_mem d)
    · exact .inr hx

theorem mem_removeAll {x : Disconnection} {ds removed : List Disconnection} :
    x ∈ removeAll ds removed ↔ x ∈ ds ∧ ∀ d ∈ removed, d.switchId ≠ x.switchId := by
  unfold removeAll
  rw [List.mem_filter]
  simp

/-- The index of the ports after new probes. -/
theorem portIndexed_foldl_processNewPort {l : Links} (h : l.PortIndexed) (id : Dpid) (ports : List OFPort) :
    (ports.foldl (fun l p => l.processNewPort id p) l).PortIndexed := by
  induction ports generalizing l with
  | nil => exact h
  | cons port ports ih => exact ih (l := l.processNewPort id port) h

variable (ord lldp) in
/-- A packet-in leaves the disconnections. -/
theorem handlePacketIn_keeps (hl : s.modules.links.PortIndexed) (c : ℕ) (m : OFMessage) :
    ((handlers ord lldp).handlePacketIn s c m).2.1.links.PortIndexed ∧
      ((handlers ord lldp).handlePacketIn s c m).2.1.disconnections = s.modules.disconnections := by
  unfold handlers
  dsimp only
  cases lldp s c m with
  | none => exact ⟨hl, rfl⟩
  | some p => exact ⟨hl.handleLldp p, rfl⟩

variable (ord lldp) in
/-- So does a generic message that is no features reply. -/
theorem handleGeneric_keeps (hl : s.modules.links.PortIndexed) (c : ℕ)
    (hm : ∀ version xid d ports, m ≠ .featuresReply version xid d ports) :
    ((handlers ord lldp).handleGeneric s c m).2.1.links.PortIndexed ∧
      ((handlers ord lldp).handleGeneric s c m).2.1.disconnections = s.modules.disconnections := by
  unfold handlers
  cases m with
  | featuresReply version xid d ports => exact absurd rfl (hm version xid d ports)
  | portStatus ps =>
    dsimp only
    cases s.getId c with
    | none => exact ⟨hl, rfl⟩
    | some id => exact ⟨hl.handlePortStatus ord id ps, rfl⟩
  | _ => exact ⟨hl, rfl⟩

/-- A handshake removes the disconnections of its switch. -/
theorem handleHandshakedEvent_removes {sw : ℕ} {id : Dpid} (hsw : s.getSwitch c = some sw)
    (hid : s.getId c = some id) (hl : s.modules.links.PortIndexed) :
    (handleHandshakedEvent s c).2.links.PortIndexed ∧
      ∀ x ∈ (handleHandshakedEvent s c).2.disconnections,
        x ∈ s.modules.disconnections ∧ x.switchId ≠ id := by
  unfold handleHandshakedEvent
  rw [hsw, hid]
  refine ⟨portIndexed_foldl_processNewPort hl id _, fun x hx => ?_⟩
  obtain ⟨hx, hnot⟩ := mem_removeAll.1 hx
  refine ⟨hx, fun heq => ?_⟩
  exact hnot x (List.mem_filter.2 ⟨hx, by simpa using heq⟩) rfl

variable (ord lldp) in
/-- The disconnections that a message leaves. -/
theorem disconnections_process (hv : s.Valid) (hl : s.modules.links.PortIndexed) (c : ℕ) (m : OFMessage) :
    (s.process (handlers ord lldp) c m).2.modules.links.PortIndexed ∧
    ((s.process (handlers ord lldp) c m).2.modules.disconnections = s.modules.disconnections ∧
        (∀ d, ¬s.Names c m c d) ∨
      ∃ d, s.Names c m c d ∧ ∀ x ∈ (s.process (handlers ord lldp) c m).2.modules.disconnections,
        x ∈ s.modules.disconnections ∧ x.switchId ≠ d) := by
  by_cases hnames : ∃ d, s.Names c m c d
  · obtain ⟨d, hnames⟩ := hnames
    have hfields := hnames
    obtain ⟨conn, version, xid, ports, hconn, hopen, hsw, rfl⟩ := hfields
    obtain ⟨hswitch, hid⟩ := named_processFeaturesReply hv hnames (.featuresReply version xid d ports)
      version xid ports
    have hmodules := modules_processFeaturesReply s c c (.featuresReply version xid d ports) version xid d
      ports
    have hprocess : s.process (handlers ord lldp) c (.featuresReply version xid d ports) =
        (s.processFeaturesReply c c (.featuresReply version xid d ports) version xid d ports).call
          (handlers ord lldp).handleGeneric c (.featuresReply version xid d ports) := by
      unfold process
      simp only [hconn, hopen, hsw, Bool.true_eq_false, if_false]
    obtain ⟨hindexed, hremoved⟩ := handleHandshakedEvent_removes hswitch hid (by rw [hmodules]; exact hl)
    rw [hprocess, modules_call]
    rw [hmodules] at hremoved
    exact ⟨hindexed, .inr ⟨d, hnames, hremoved⟩⟩
  · have hnot : ∀ sw d, ¬s.Names c m sw d := by
      intro sw d hsw
      obtain rfl := hsw.eq hv
      exact hnames ⟨d, hsw⟩
    obtain hsame | hpacket | ⟨s', hs', hm, hgeneric⟩ := modules_process (handlers ord lldp) hnot
    · rw [hsame]
      exact ⟨hl, .inl ⟨rfl, hnot c⟩⟩
    · obtain ⟨hindexed, hkept⟩ := handlePacketIn_keeps ord lldp hl c m
      rw [hpacket]
      exact ⟨hindexed, .inl ⟨hkept, hnot c⟩⟩
    · obtain ⟨hindexed, hkept⟩ :=
        handleGeneric_keeps ord lldp (s := s') (by rw [hs']; exact hl) c hm
      rw [hgeneric]
      exact ⟨hindexed, .inl ⟨hkept.trans (by rw [hs']), hnot c⟩⟩

/-- The disconnections that the end of a connection leaves. -/
theorem disconnections_disconnected (c : ℕ) :
    (s.disconnected (handlers ord lldp) c).modules.links = s.modules.links ∧
    ∀ x ∈ (s.disconnected (handlers ord lldp) c).modules.disconnections,
      x ∈ s.modules.disconnections ∨ s.getId c = some x.switchId := by
  have hmodules : (s.disconnected (handlers ord lldp) c).modules =
      if s.isConnected c = true ∧ s.getId c ≠ none then handleDisconnect s c else s.modules := by
    unfold disconnected handleDisconnectEvent
    by_cases hopen : s.isConnected c = true
    · rw [if_pos hopen, modules_close]
      cases hid : s.getId c with
      | none => rw [if_neg (by simp)]
      | some id => rw [if_pos ⟨hopen, by simp⟩]; rfl
    · rw [if_neg hopen, if_neg fun h => hopen h.1]
  rw [hmodules]
  split_ifs
  · unfold handleDisconnect
    split
    · rename_i sw id _ hid
      refine ⟨rfl, fun x hx => ?_⟩
      obtain rfl | hx := mem_addDisconnection hx
      · exact .inr hid
      · exact .inl hx
    · exact ⟨rfl, fun x hx => .inl hx⟩
  · exact ⟨rfl, fun x hx => .inl hx⟩

/-! ## Runs without a shared end -/

/-- What holds in every state. -/
structure Sound (s : Controller OFMLinkDiscovery) : Prop where
  valid : s.Valid
  indexed : s.modules.links.PortIndexed

/-- No switch on record as gone is connected. -/
def Away (s : Controller OFMLinkDiscovery) : Prop :=
  ∀ dcn ∈ s.modules.disconnections, ∀ c, s.getId c ≠ some dcn.switchId

/-- The links that a cleaning leaves. -/
theorem stored_cleaned {l : Links} (h : l.PortIndexed) (dcns : List Disconnection) (lt : Link) :
    (dcns.foldl (fun l dcn => l.deleteSwitch ord dcn.switchId (ord.iter dcn.ports)) l).PortIndexed ∧
    ((dcns.foldl (fun l dcn => l.deleteSwitch ord dcn.switchId (ord.iter dcn.ports)) l).Stored lt ↔
      l.Stored lt ∧ ∀ dcn ∈ dcns, ∀ port ∈ dcn.ports, ⟨dcn.switchId, port⟩ ∉ lt.ends) := by
  induction dcns generalizing l with
  | nil => simp [h]
  | cons dcn dcns ih =>
    obtain ⟨hindexed, hstored⟩ := ih (h.deleteSwitch ord dcn.switchId (ord.iter dcn.ports))
    refine ⟨hindexed, hstored.trans ?_⟩
    rw [Links.stored_deleteSwitch ord dcn.switchId (ord.iter dcn.ports) lt l h]
    simp [and_assoc]

theorem Sound.step (hs : Sound s) (e : Event) : Sound (step ord lldp s e) := by
  cases e with
  | controller e =>
    refine ⟨hs.valid.handle (handlers ord lldp) e, ?_⟩
    cases e with
    | accept host => exact hs.indexed
    | connected c =>
      show (s.connected c).modules.links.PortIndexed
      rw [modules_connected]
      exact hs.indexed
    | message c m => exact (disconnections_process ord lldp hs.valid hs.indexed c m).1
    | disconnected c =>
      show (s.disconnected (handlers ord lldp) c).modules.links.PortIndexed
      rw [(disconnections_disconnected c).1]
      exact hs.indexed
  | clock now => exact ⟨⟨hs.valid.le_seq, hs.valid.linked⟩, hs.indexed⟩
  | timeoutLinks curTime => exact ⟨⟨hs.valid.le_seq, hs.valid.linked⟩, hs.indexed.timeoutLinks ord curTime⟩
  | clean =>
    refine ⟨⟨hs.valid.le_seq, hs.valid.linked⟩, ?_⟩
    exact (stored_cleaned hs.indexed _ ⟨0, 0, 0, 0⟩).1

theorem getId_of_sessions {s' : Controller OFMLinkDiscovery} (hv : s.Valid) (hv' : s'.Valid)
    (heq : s'.sessions = s.sessions) (c : ℕ) : s'.getId c = s.getId c := by
  rw [← hv.name_sessions, ← hv'.name_sessions, heq]

theorem Away.message (hs : Sound s) (ha : Away s) (c : ℕ) (m : OFMessage) :
    Away (s.process (handlers ord lldp) c m).2 := by
  have hv' : (s.process (handlers ord lldp) c m).2.Valid := hs.valid.handle (handlers ord lldp) (.message c m)
  intro x hx c'
  obtain ⟨-, ⟨hkept, hnot⟩ | ⟨d, hnames, hremoved⟩⟩ :=
    disconnections_process ord lldp hs.valid hs.indexed c m
  · obtain ⟨hsame, -⟩ | ⟨d, hnames, -⟩ := sessions_process hs.valid (handlers ord lldp) c m
    · rw [getId_of_sessions hs.valid hv' hsame]
      exact ha x (hkept ▸ hx) c'
    · exact absurd hnames (hnot d)
  · obtain ⟨-, hnot⟩ | ⟨d', hnames', hjoin⟩ := sessions_process hs.valid (handlers ord lldp) c m
    · exact absurd hnames (hnot d)
    · obtain ⟨_, _, _, _, -, -, -, hm⟩ := hnames
      obtain ⟨_, _, _, _, -, -, -, hm'⟩ := hnames'
      cases hm.symm.trans hm'
      obtain ⟨hx, hne⟩ := hremoved x hx
      rw [← hv'.name_sessions, hjoin]
      show Function.update s.sessions.name c (some d) c' ≠ some x.switchId
      rw [Function.update_apply]
      split_ifs
      · exact fun heq => hne (Option.some.inj heq).symm
      · rw [hs.valid.name_sessions]
        exact ha x hx c'

theorem Away.disconnected (hs : Sound s) (ha : Away s) {c : ℕ}
    (he : ¬EndsShared s (.controller (.disconnected c))) :
    Away (s.disconnected (handlers ord lldp) c) := by
  have hv' : (s.disconnected (handlers ord lldp) c).Valid :=
    hs.valid.handle (handlers ord lldp) (.disconnected c)
  intro x hx c'
  have hx := (disconnections_disconnected c).2 x hx
  obtain ⟨hnone, hsame⟩ | ⟨d, hd, hleave⟩ := sessions_disconnected hs.valid (handlers ord lldp) c
  · rw [getId_of_sessions hs.valid hv' hsame]
    rw [hnone] at hx
    exact ha x (hx.resolve_right nofun) c'
  · rw [← hv'.name_sessions, hleave]
    show Function.update s.sessions.name c none c' ≠ some x.switchId
    rw [Function.update_apply]
    split_ifs with hc
    · exact nofun
    · rw [hs.valid.name_sessions]
      obtain hx | hx := hx
      · exact ha x hx c'
      · -- the switch that has just gone has no other connection
        exact fun hid => he ⟨x.switchId, hx, c', hc, hid⟩

theorem Away.step (hs : Sound s) (ha : Away s) {e : Event} (he : ¬EndsShared s e) :
    Away (step ord lldp s e) := by
  cases e with
  | controller e =>
    cases e with
    | accept host =>
      intro x hx c
      show (s.accept host).getId c ≠ some x.switchId
      rw [getId_of_sessions hs.valid (view_accept hs.valid host).1 (sessions_accept hs.valid host)]
      exact ha x hx c
    | connected c =>
      intro x hx c'
      show (s.connected c).getId c' ≠ some x.switchId
      obtain ⟨hv', hview⟩ := view_connected hs.valid c
      rw [getId_of_sessions hs.valid hv' (congrArg View.sessions hview)]
      exact ha x (modules_connected s c ▸ hx) c'
    | message c m => exact ha.message hs c m
    | disconnected c => exact ha.disconnected hs he
  | clock now => exact ha
  | timeoutLinks curTime => exact ha
  | clean => exact fun x hx => ha x (mem_removeAll.1 hx).1

/-- A cleaning takes links only from switches that are on record as gone. -/
theorem exists_of_cleans (hs : Sound s) {lt : Link} (hlt : Cleans ord s.modules lt) :
    ∃ dcn ∈ s.modules.disconnections, dcn.switchId ∈ lt.endSwitches := by
  obtain ⟨hstored, hgone⟩ := hlt
  rw [cleanDisconnectedSwitches, (stored_cleaned hs.indexed _ lt).2] at hgone
  push Not at hgone
  obtain ⟨dcn, hdcn, port, -, hend⟩ := hgone hstored
  refine ⟨dcn, (List.mem_filter.1 hdcn).1, ?_⟩
  rw [Link.mem_endSwitches]
  exact (Link.mem_ends.1 hend).imp (congrArg NodePortTuple.nodeId) (congrArg NodePortTuple.nodeId)

/-- **Cleanings.** In a run of events in any order in which no connection ends while another one has
the same datapath id, each link that a cleaning takes has an end at a switch that is not connected. -/
theorem spares_of_clean (ord : HashOrder)
    (lldp : Controller OFMLinkDiscovery → ℕ → OFMessage → Option LldpPacket) (es : List Event)
    (hc : Machine.Clean (step ord lldp) EndsShared (.new start) es) :
    ∀ pre post, es = pre ++ .clean :: post → ∀ lt,
      Cleans ord (Machine.run (step ord lldp) (.new start) pre).modules lt →
        ∃ id ∈ lt.endSwitches, ∀ c, (Machine.run (step ord lldp) (.new start) pre).getId c ≠ some id := by
  rintro pre post rfl lt hlt
  have hstart : Sound (.new start) := ⟨valid_new start, Links.agree_empty.portLinks⟩
  obtain ⟨hs, ha⟩ := Machine.Clean.invariant (I := fun s => Sound s ∧ Away s)
    (fun s e h he => ⟨h.1.step e, h.2.step h.1 he⟩) ⟨hstart, fun _ hx => absurd hx List.not_mem_nil⟩
    hc.prefix
  obtain ⟨dcn, hdcn, hend⟩ := exists_of_cleans hs hlt
  exact ⟨dcn.switchId, hend, ha dcn hdcn⟩

/-- A port that is up. -/
def upPort (portNo : OFPort) : OFPortDesc := ⟨portNo, ∅, ∅⟩

/-- The switches 5 and 6 connect, and LLDP finds the link between their ports 1. -/
def linked : List Event :=
  [.controller (.accept "a"), .controller (.connected 1),
    .controller (.message 1 (.featuresReply .of13 0 5 (some [upPort 1]))),
    .controller (.accept "b"), .controller (.connected 2),
    .controller (.message 2 (.featuresReply .of13 0 6 (some [upPort 1]))),
    .controller (.message 2 (.packetIn []))]

/-- The packet-in of the switch 6 holds an LLDP packet of the switch 5. -/
def lldpFrom : Controller OFMLinkDiscovery → ℕ → OFMessage → Option LldpPacket := fun _ _ _ =>
  some ⟨6, 1, some (upPort 1), some 5, 1, some (upPort 1), true, some false, 0, some 0, 0, 0, 0⟩

/-- The switch 5 is away for 20 seconds. -/
def away : List Event := linked ++ [.controller (.disconnected 1), .clock 20000]

theorem clean_away :
    Machine.Clean (step .insertion lldpFrom) EndsShared (.new start) (away ++ [.clean]) := by
  refine ⟨id, id, id, id, id, id, id, ?_, id, id, trivial⟩
  rintro ⟨id, hid, c, hne, hc⟩
  match c with
  | 0 => exact nomatch hc
  | 1 => exact hne rfl
  | 2 => exact absurd (hid.trans hc.symm) (by decide)
  | n + 3 => exact nomatch hc

theorem spares_of_clean_away :
    ∃ id ∈ (⟨5, 1, 6, 1⟩ : Link).endSwitches, ∀ c,
      (Machine.run (step .insertion lldpFrom) (.new start) away).getId c ≠ some id := by
  have hcleans : Cleans .insertion
      (Machine.run (step .insertion lldpFrom) (.new start) away).modules ⟨5, 1, 6, 1⟩ := by
    unfold Cleans
    rw [Links.stored_iff, Links.stored_iff]
    decide
  exact spares_of_clean .insertion lldpFrom (away ++ [.clean]) clean_away away [] rfl _ hcleans

/-- The switch 5 reconnects before its old connection is disconnected. -/
def reconnected : List Event :=
  linked ++ [.controller (.accept "a"), .controller (.connected 3),
    .controller (.message 3 (.featuresReply .of13 0 5 (some [upPort 1]))),
    .controller (.disconnected 1), .clock 20000]

/-- So it loses its link, although the switches 5 and 6 are connected. -/
theorem not_spares_reconnected :
    ¬∀ (ord : HashOrder) (lldp : Controller OFMLinkDiscovery → ℕ → OFMessage → Option LldpPacket)
      (es : List Event) (lt : Link), Cleans ord (Machine.run (step ord lldp) (.new start) es).modules lt →
        ∃ id ∈ lt.endSwitches, ∀ c, (Machine.run (step ord lldp) (.new start) es).getId c ≠ some id := by
  intro hall
  have hcleans : Cleans .insertion
      (Machine.run (step .insertion lldpFrom) (.new start) reconnected).modules ⟨5, 1, 6, 1⟩ := by
    unfold Cleans
    rw [Links.stored_iff, Links.stored_iff]
    decide
  obtain ⟨id, hid, hnot⟩ := hall .insertion lldpFrom reconnected ⟨5, 1, 6, 1⟩ hcleans
  obtain rfl | rfl := Link.mem_endSwitches.1 hid
  · exact hnot 3 (by decide)
  · exact hnot 2 (by decide)

end OFMLinkDiscovery

end Torpedo
