import Torpedo.Controller.Controller
import Torpedo.Util.Registrations
import Torpedo.Util.Runs

/-!
# Sessions

Each event leaves the connections, the switch objects and the switches map as they are, but for the
few fields it is about: the lemmas `view_` say what becomes of them (`View`). Seen as `Registrations`,
with the open connections as parties and the datapath ids as names, a features reply joins and the end
of a connection leaves, and nothing else moves.
-/

namespace Torpedo

namespace Controller

variable {σ : Type} {s s' : Controller σ} {c : ℕ} {m : OFMessage}

theorem isConnected_of_get {conn : Connection} (hconn : s.conns.get c = some conn) :
    s.isConnected c = conn.isConnected := by
  unfold isConnected
  rw [hconn]
  rfl

theorem getSwitch_of_get {conn : Connection} (hconn : s.conns.get c = some conn) :
    s.getSwitch c = conn.sw := by
  unfold getSwitch
  rw [hconn]
  rfl

/-! ## What the modules leave alone -/

/-- The part of a controller that its modules do not change. -/
structure Core where
  seq : ℕ
  conns : HashMap ℕ Connection
  switchObjects : HashMap ℕ OFSwitch
  switches : HashMap Dpid ℕ
  disconnects : List (ℕ × ℕ × Option ℕ)

def core (s : Controller σ) : Core := ⟨s.seq, s.conns, s.switchObjects, s.switches, s.disconnects⟩

/-- `addSwitch`. -/
def Core.addSwitch (k : Core) (id : Dpid) (sw : ℕ) : Core := { k with switches := k.switches.put id sw }

@[simp] theorem core_addSwitch (s : Controller σ) (id : Dpid) (sw : ℕ) :
    (s.addSwitch id sw).core = s.core.addSwitch id sw := rfl

@[simp] theorem core_write (s : Controller σ) (c : ℕ) (m : OFRequest) : (s.write c m).core = s.core :=
  rfl

@[simp] theorem core_setProtocol (s : Controller σ) (f : OFProtocol → OFProtocol) :
    (s.setProtocol f).core = s.core := rfl

@[simp] theorem core_ite_write (p : Prop) [Decidable p] (s : Controller σ) (c : ℕ) (m : OFRequest) :
    (if p then s.write c m else s).core = s.core := by
  split_ifs <;> rfl

@[simp] theorem core_writeAll (s : Controller σ) (c : ℕ) (ms : List OFRequest) :
    (s.writeAll c ms).core = s.core := by
  unfold writeAll
  induction ms generalizing s with
  | nil => rfl
  | cons m ms ih => exact (ih _).trans (core_write s c m)

@[simp] theorem core_call (f : Controller σ → ℕ → OFMessage → HandlerResult × σ × List OFRequest)
    (s : Controller σ) (c : ℕ) (m : OFMessage) : (s.call f c m).2.core = s.core := by
  unfold call
  rw [core_writeAll]
  rfl

/-! ## What a message changes -/

theorem get_setSwitchObject (s : Controller σ) (sw : ℕ) (f : OFSwitch → OFSwitch) (x : ℕ) :
    (s.setSwitchObject sw f).switchObjects.get x =
      if x = sw then (s.switchObjects.get sw).map f else s.switchObjects.get x := by
  unfold setSwitchObject
  cases ho : s.switchObjects.get sw with
  | none =>
    dsimp only
    by_cases hx : x = sw
    · rw [if_pos hx, hx, ho]
      rfl
    · rw [if_neg hx]
  | some o =>
    dsimp only
    rw [HashMap.get_put]
    rfl

theorem conns_setSwitchObject (s : Controller σ) (sw : ℕ) (f : OFSwitch → OFSwitch) :
    (s.setSwitchObject sw f).conns = s.conns := by
  unfold setSwitchObject
  split <;> rfl

theorem core_setSwitchObject (s : Controller σ) (sw : ℕ) (f : OFSwitch → OFSwitch) :
    (s.setSwitchObject sw f).core =
      { s.core with switchObjects := (s.setSwitchObject sw f).switchObjects } := by
  unfold setSwitchObject
  split <;> rfl

theorem core_processHello (s : Controller σ) (c : ℕ) (conn : Connection) (version : OFVersion) :
    (s.processHello c conn version).core =
      match conn.sw with
      | none => s.core
      | some sw => (s.setSwitchObject sw fun o => { o with version := version }).core := by
  unfold processHello
  rw [core_write, core_setProtocol]
  cases conn.sw <;> rfl

theorem core_processFeaturesReply (s : Controller σ) (c sw : ℕ) (m : OFMessage) (version : OFVersion)
    (xid : ℕ) (datapathId : Dpid) (ports : Option (List OFPortDesc)) :
    (s.processFeaturesReply c sw m version xid datapathId ports).core =
      (s.setSwitchObject sw fun o => { o with id := some datapathId }).core.addSwitch datapathId sw := by
  unfold processFeaturesReply
  cases ports <;> simp only [core_setProtocol, core_addSwitch, core_ite_write, core_write]

/-- A features reply that an open connection with a switch object sends. -/
def Names (s : Controller σ) (c : ℕ) (m : OFMessage) (sw : ℕ) (d : Dpid) : Prop :=
  ∃ conn version xid ports, s.conns.get c = some conn ∧ conn.isConnected = true ∧ conn.sw = some sw ∧
    m = .featuresReply version xid d ports

theorem isConnected_of_names {sw : ℕ} {m : OFMessage} {d : Dpid} (hnames : s.Names c m sw d) :
    s.isConnected c = true := by
  obtain ⟨conn, _, _, _, hconn, hopen, -⟩ := hnames
  rw [isConnected_of_get hconn]
  exact hopen

/-- What `process` can do with a message, and for which messages. -/
inductive Processes (h : Handlers σ) (s : Controller σ) (c : ℕ) (m : OFMessage) : Controller σ → Prop
  | nothing : (∀ sw d, ¬s.Names c m sw d) →
    (∀ conn version, s.conns.get c = some conn → conn.isConnected = true → m ≠ .hello version) →
    Processes h s c m s
  | hello (conn : Connection) (version : OFVersion) :
    s.conns.get c = some conn → conn.isConnected = true → m = .hello version →
    Processes h s c m (s.processHello c conn version)
  | write (r : OFRequest) : (∀ sw d, ¬s.Names c m sw d) → (∀ version, m ≠ .hello version) →
    Processes h s c m (s.write c r)
  | featuresReply (sw : ℕ) (version : OFVersion) (xid : ℕ) (d : Dpid)
    (ports : Option (List OFPortDesc)) :
    s.Names c m sw d → m = .featuresReply version xid d ports →
    Processes h s c m ((s.processFeaturesReply c sw m version xid d ports).call h.handleGeneric c m).2
  | portStatus (sw : ℕ) (ps : OFPortStatus) : m = .portStatus ps →
    Processes h s c m ((s.setProtocol fun p => p.updatePort sw ps).call h.handleGeneric c m).2
  | statsReply (sw xid : ℕ) (stats : OFStats) (replyMore : Bool) : m = .statsReply xid stats replyMore →
    Processes h s c m (s.setProtocol fun p => processStatsReply p sw m xid stats)
  | packetIn : (∀ sw d, ¬s.Names c m sw d) → (∀ version, m ≠ .hello version) →
    Processes h s c m (s.call h.handlePacketIn c m).2
  | other (type : ℕ) : m = .other type → Processes h s c m (s.call h.handleGeneric c m).2

theorem processes_process (h : Handlers σ) (s : Controller σ) (c : ℕ) (m : OFMessage) :
    Processes h s c m (s.process h c m).2 := by
  generalize hr : s.process h c m = r
  unfold process at hr
  cases hconn : s.conns.get c with
  | none =>
    rw [hconn] at hr
    cases hr
    refine .nothing ?_ fun conn _ hsome => nomatch hconn.symm.trans hsome
    rintro _ _ ⟨_, _, _, _, hsome, -⟩
    exact nomatch hconn.symm.trans hsome
  | some conn =>
    rw [hconn] at hr
    dsimp only at hr
    by_cases hconnected : conn.isConnected = false
    · rw [if_pos hconnected] at hr
      cases hr
      refine .nothing ?_ fun conn _ hsome htrue => ?_
      · rintro _ _ ⟨_, _, _, _, hsome, htrue, -⟩
        cases hconn.symm.trans hsome
        exact nomatch hconnected.symm.trans htrue
      · cases hconn.symm.trans hsome
        exact nomatch hconnected.symm.trans htrue
    · rw [if_neg hconnected] at hr
      rw [Bool.not_eq_false] at hconnected
      cases m with
      | hello version =>
        cases hr
        exact .hello conn version hconn hconnected rfl
      | featuresReply version xid d ports =>
        cases hsw : conn.sw with
        | none =>
          rw [hsw] at hr
          cases hr
          refine .nothing ?_ nofun
          rintro _ _ ⟨_, _, _, _, hsome, -, hsw', -⟩
          cases hconn.symm.trans hsome
          exact nomatch hsw.symm.trans hsw'
        | some sw =>
          rw [hsw] at hr
          cases hr
          exact .featuresReply sw version xid d ports
            ⟨conn, version, xid, ports, hconn, hconnected, hsw, rfl⟩ rfl
      | packetIn data =>
        have hnot : ∀ sw d, ¬s.Names c (.packetIn data) sw d := by
          rintro _ _ ⟨_, _, _, _, -, -, -, ⟨⟩⟩
        cases hsw : conn.sw with
        | none =>
          rw [hsw] at hr
          cases hr
          exact .nothing hnot nofun
        | some sw =>
          rw [hsw] at hr
          dsimp only at hr
          split_ifs at hr <;> cases hr
          · exact .nothing hnot nofun
          · exact .packetIn hnot nofun
      | flowRemoved =>
        have hnot : ∀ sw d, ¬s.Names c .flowRemoved sw d := by
          rintro _ _ ⟨_, _, _, _, -, -, -, ⟨⟩⟩
        cases hsw : conn.sw with
        | none =>
          rw [hsw] at hr
          cases hr
          exact .nothing hnot nofun
        | some sw =>
          rw [hsw] at hr
          dsimp only at hr
          split_ifs at hr <;> cases hr
          · exact .nothing hnot nofun
          · exact .packetIn hnot nofun
      | portStatus ps =>
        cases hsw : conn.sw with
        | none =>
          rw [hsw] at hr
          cases hr
          exact .nothing (by rintro _ _ ⟨_, _, _, _, -, -, -, ⟨⟩⟩) nofun
        | some sw =>
          rw [hsw] at hr
          cases hr
          exact .portStatus sw ps rfl
      | statsReply xid stats replyMore =>
        cases hsw : conn.sw with
        | none =>
          rw [hsw] at hr
          cases hr
          exact .nothing (by rintro _ _ ⟨_, _, _, _, -, -, -, ⟨⟩⟩) nofun
        | some sw =>
          rw [hsw] at hr
          cases hr
          exact .statsReply sw xid stats replyMore rfl
      | error =>
        cases hr
        exact .nothing (by rintro _ _ ⟨_, _, _, _, -, -, -, ⟨⟩⟩) nofun
      | echoRequest version xid data =>
        cases hr
        exact .write _ (by rintro _ _ ⟨_, _, _, _, -, -, -, ⟨⟩⟩) nofun
      | other type =>
        cases hr
        exact .other type rfl

/-- What a message can do: nothing to the core, set the version of the switch object, or name the
connection. -/
theorem core_process (h : Handlers σ) (s : Controller σ) (c : ℕ) (m : OFMessage) :
    ((s.process h c m).2.core = s.core ∧ ∀ sw d, ¬s.Names c m sw d) ∨
    (∃ conn version, s.conns.get c = some conn ∧ m = .hello version ∧
      (s.process h c m).2.core = (s.processHello c conn version).core) ∨
    ∃ sw d, s.Names c m sw d ∧ (s.process h c m).2.core =
      (s.setSwitchObject sw fun o => { o with id := some d }).core.addSwitch d sw := by
  have hp := processes_process h s c m
  generalize (s.process h c m).2 = s' at hp
  cases hp with
  | nothing hnot hm => exact .inl ⟨rfl, hnot⟩
  | hello conn version hconn hopen hm => exact .inr (.inl ⟨conn, version, hconn, hm, rfl⟩)
  | write r hnot hm => exact .inl ⟨rfl, hnot⟩
  | featuresReply sw version xid d ports hnames hm =>
    refine .inr (.inr ⟨sw, d, hnames, ?_⟩)
    rw [core_call, core_processFeaturesReply]
  | portStatus sw ps hm =>
    refine .inl ⟨core_call .., ?_⟩
    rintro _ _ ⟨_, _, _, _, -, -, -, hm'⟩
    exact nomatch hm.symm.trans hm'
  | statsReply sw xid stats replyMore hm =>
    refine .inl ⟨rfl, ?_⟩
    rintro _ _ ⟨_, _, _, _, -, -, -, hm'⟩
    exact nomatch hm.symm.trans hm'
  | packetIn hnot hm => exact .inl ⟨core_call .., hnot⟩
  | other type hm =>
    refine .inl ⟨core_call .., ?_⟩
    rintro _ _ ⟨_, _, _, _, -, -, -, hm'⟩
    exact nomatch hm.symm.trans hm'

theorem conns_process (h : Handlers σ) (s : Controller σ) (c : ℕ) (m : OFMessage) :
    (s.process h c m).2.conns = s.conns := by
  obtain ⟨hc, -⟩ | ⟨conn, version, -, -, hc⟩ | ⟨sw, d, -, hc⟩ := core_process h s c m
  · exact congrArg Core.conns hc
  · refine (congrArg Core.conns hc).trans ?_
    rw [core_processHello]
    split
    · rfl
    · exact conns_setSwitchObject ..
  · refine (congrArg Core.conns hc).trans ?_
    exact conns_setSwitchObject s sw _

/-! ## Connections and their switch objects -/

/-- How a connection and the switch object made for it stand to each other. -/
inductive Linked (c : ℕ) : Option Connection → Option OFSwitch → Prop
  | absent : Linked c none none
  | early (host : Host) : Linked c (some ⟨host, .connected, none, true⟩) none
  | running (host : Host) (version : OFVersion) (id : Option Dpid) :
    Linked c (some ⟨host, .running, some c, true⟩) (some ⟨version, id, some c⟩)
  | closed (host : Host) (o : Option OFSwitch) :
    (∀ o', o = some o' → o'.conn = some c ∨ o'.conn = none) →
    Linked c (some ⟨host, .closed, none, false⟩) o

/-- Each connection has a number that was drawn, and stands well to its switch object. -/
structure Valid (s : Controller σ) : Prop where
  le_seq : ∀ c conn, s.conns.get c = some conn → c ≤ s.seq
  linked : ∀ c, Linked c (s.conns.get c) (s.switchObjects.get c)

theorem valid_new (modules : σ) : (new modules).Valid := ⟨fun _ _ => nofun, fun _ => .absent⟩

theorem Valid.core (hv : s.Valid) (hc : s'.core = s.core) : s'.Valid := by
  have hseq : s'.seq = s.seq := congrArg Core.seq hc
  have hconns : s'.conns = s.conns := congrArg Core.conns hc
  have hobjects : s'.switchObjects = s.switchObjects := congrArg Core.switchObjects hc
  refine ⟨?_, ?_⟩
  · rw [hconns, hseq]
    exact hv.le_seq
  · rw [hconns, hobjects]
    exact hv.linked

/-- Nothing but the connection `c` and its switch object has changed. -/
theorem Valid.update (hv : s.Valid) (c : ℕ) (hseq : s.seq ≤ s'.seq) (hle : c ≤ s'.seq)
    (hconns : ∀ x ≠ c, s'.conns.get x = s.conns.get x)
    (hobjects : ∀ x ≠ c, s'.switchObjects.get x = s.switchObjects.get x)
    (hc : Linked c (s'.conns.get c) (s'.switchObjects.get c)) : s'.Valid where
  le_seq x conn hx := by
    by_cases hxc : x = c
    · exact hxc ▸ hle
    · rw [hconns x hxc] at hx
      exact (hv.le_seq x conn hx).trans hseq
  linked x := by
    by_cases hxc : x = c
    · rw [hxc]
      exact hc
    · rw [hconns x hxc, hobjects x hxc]
      exact hv.linked x

/-- The id of the switch object made for a connection, also after `close`. -/
def idOf (s : Controller σ) (c : ℕ) : Option Dpid := (s.switchObjects.get c).bind OFSwitch.id

theorem Valid.getId_eq (hv : s.Valid) (c : ℕ) :
    s.getId c = if s.isConnected c then s.idOf c else none := by
  have hl := hv.linked c
  unfold getId getSwitch isConnected idOf
  generalize hconn : s.conns.get c = conn at hl
  generalize ho : s.switchObjects.get c = o at hl
  cases hl with
  | absent => rfl
  | early host => rfl
  | running host version id =>
    show (s.switchObjects.get c).bind OFSwitch.id = _
    rw [ho]
    rfl
  | closed host o ho' => rfl

/-- A connection with an id is open. -/
theorem Valid.isConnected (hv : s.Valid) {d : Dpid} (hd : s.getId c = some d) :
    s.isConnected c = true := by
  rw [hv.getId_eq] at hd
  by_contra hclosed
  rw [if_neg hclosed] at hd
  cases hd

/-! ## What an event changes -/

/-- What events change: the open connections, the ids, the switches map and the calls of
`processDisconnect`. -/
@[ext]
structure View where
  isConnected : ℕ → Bool
  id : ℕ → Option Dpid
  entry : Dpid → Option ℕ
  disconnects : List (ℕ × ℕ × Option ℕ)

def view (s : Controller σ) : View := ⟨s.isConnected, s.idOf, s.switches.get, s.disconnects⟩

theorem view_of_core (hc : s'.core = s.core) : s'.view = s.view := by
  have hconns : s'.conns = s.conns := congrArg Core.conns hc
  have hobjects : s'.switchObjects = s.switchObjects := congrArg Core.switchObjects hc
  have hswitches : s'.switches = s.switches := congrArg Core.switches hc
  have hdisconnects : s'.disconnects = s.disconnects := congrArg Core.disconnects hc
  unfold view isConnected idOf
  rw [hconns, hobjects, hswitches, hdisconnects]

/-- The ids after the switch object of one connection has changed. -/
theorem idOf_setSwitchObject (s : Controller σ) (c : ℕ) (f : OFSwitch → OFSwitch) :
    (s.setSwitchObject c f).idOf =
      Function.update s.idOf c (((s.switchObjects.get c).map f).bind OFSwitch.id) := by
  funext x
  rw [Function.update_apply]
  unfold idOf
  rw [get_setSwitchObject]
  split_ifs <;> rfl

theorem view_setSwitchObject (s : Controller σ) (c : ℕ) (f : OFSwitch → OFSwitch) :
    (s.setSwitchObject c f).view =
      { s.view with
        id := Function.update s.idOf c (((s.switchObjects.get c).map f).bind OFSwitch.id) } := by
  unfold view
  rw [idOf_setSwitchObject]
  unfold setSwitchObject
  split <;> rfl

theorem Valid.setSwitchObject (hv : s.Valid) {conn : Connection} (hconn : s.conns.get c = some conn)
    {f : OFSwitch → OFSwitch} (hl : Linked c (some conn) ((s.switchObjects.get c).map f)) :
    (s.setSwitchObject c f).Valid := by
  refine hv.update c (congrArg Core.seq (core_setSwitchObject s c f)).ge ?_ ?_ ?_ ?_
  · exact (hv.le_seq c conn hconn).trans (congrArg Core.seq (core_setSwitchObject s c f)).ge
  · intro x _
    rw [conns_setSwitchObject]
  · intro x hx
    rw [get_setSwitchObject, if_neg hx]
  · rw [conns_setSwitchObject, get_setSwitchObject, if_pos rfl, hconn]
    exact hl

/-- What a message does: a features reply names its connection. -/
theorem view_process (hv : s.Valid) (h : Handlers σ) (c : ℕ) (m : OFMessage) :
    (s.process h c m).2.Valid ∧
    (((s.process h c m).2.view = s.view ∧ ∀ d, ¬s.Names c m c d) ∨
      ∃ d, s.Names c m c d ∧ (s.process h c m).2.view =
        { s.view with
          id := Function.update s.idOf c (some d)
          entry := Function.update s.switches.get d (some c) }) := by
  have hl := hv.linked c
  obtain ⟨hc, hnot⟩ | ⟨conn, version, hconn, rfl, hc⟩ | ⟨sw, d, hnames, hc⟩ := core_process h s c m
  · exact ⟨hv.core hc, .inl ⟨view_of_core hc, hnot c⟩⟩
  · rw [core_processHello] at hc
    have hnot : ∀ d, ¬s.Names c (.hello version) c d := by
      rintro d ⟨_, _, _, _, -, -, -, ⟨⟩⟩
    rw [hconn] at hl
    generalize ho : s.switchObjects.get c = o at hl
    cases hl with
    | early host => exact ⟨hv.core hc, .inl ⟨view_of_core hc, hnot⟩⟩
    | closed host o ho' => exact ⟨hv.core hc, .inl ⟨view_of_core hc, hnot⟩⟩
    | running host version' id =>
      refine ⟨Valid.core (hv.setSwitchObject hconn ?_) hc, .inl ⟨(view_of_core hc).trans ?_, hnot⟩⟩
      · rw [ho]
        exact .running host version id
      · have hid : id = s.idOf c := by
          unfold idOf
          rw [ho]
          rfl
        rw [view_setSwitchObject, ho]
        show { s.view with id := Function.update s.idOf c id } = s.view
        rw [hid, Function.update_eq_self]
        rfl
  · have hnames' := hnames
    obtain ⟨conn, version, xid, ports, hconn, hopen, hsw, rfl⟩ := hnames'
    rw [hconn] at hl
    generalize ho : s.switchObjects.get c = o at hl
    cases hl with
    | early host => cases hsw
    | closed host o ho' => cases hsw
    | running host version' id =>
      cases hsw
      have hset : (s.setSwitchObject c fun o => { o with id := some d }).Valid :=
        hv.setSwitchObject hconn (by rw [ho]; exact .running host version' (some d))
      have hadd : ((s.setSwitchObject c fun o => { o with id := some d }).addSwitch d c).Valid :=
        ⟨hset.le_seq, hset.linked⟩
      refine ⟨hadd.core hc, .inr ⟨d, hnames, (view_of_core (s := (s.setSwitchObject c fun o =>
        { o with id := some d }).addSwitch d c) hc).trans ?_⟩⟩
      have hview := view_setSwitchObject s c fun o => { o with id := some d }
      rw [ho] at hview
      have hswitches : (s.setSwitchObject c fun o => { o with id := some d }).switches = s.switches :=
        congrArg Core.switches (core_setSwitchObject ..)
      refine View.ext ?_ ?_ ?_ ?_
      · exact show (s.setSwitchObject c fun o => { o with id := some d }).view.isConnected = s.isConnected
          from congrArg View.isConnected hview
      · exact show (s.setSwitchObject c fun o => { o with id := some d }).view.id =
          Function.update s.idOf c (some d) from congrArg View.id hview
      · show ((s.setSwitchObject c fun o => { o with id := some d }).switches.put d c).get = _
        rw [hswitches, HashMap.get_put_eq]
      · exact show (s.setSwitchObject c fun o => { o with id := some d }).view.disconnects = s.disconnects
          from congrArg View.disconnects hview

theorem view_accept (hv : s.Valid) (host : Host) :
    (s.accept host).Valid ∧
    (s.accept host).view = { s.view with isConnected := Function.update s.isConnected (s.seq + 1) true } ∧
    s.idOf (s.seq + 1) = none := by
  have hnone : s.conns.get (s.seq + 1) = none := by
    cases hc : s.conns.get (s.seq + 1) with
    | none => rfl
    | some conn => exact absurd (hv.le_seq _ conn hc) (by omega)
  have hobject : s.switchObjects.get (s.seq + 1) = none := by
    have hl := hv.linked (s.seq + 1)
    rw [hnone] at hl
    generalize s.switchObjects.get (s.seq + 1) = o at hl
    cases hl
    rfl
  refine ⟨hv.update (s.seq + 1) (Nat.le_succ _) le_rfl ?_ (fun _ _ => rfl) ?_, ?_, ?_⟩
  · intro x hx
    show (s.conns.put _ _).get x = _
    rw [HashMap.get_put, if_neg hx]
  · show Linked _ ((s.conns.put _ _).get _) (s.switchObjects.get _)
    rw [HashMap.get_put_self, hobject]
    exact .early host
  · refine View.ext ?_ rfl rfl rfl
    funext x
    show (((s.conns.put _ _).get x).map _).getD false = Function.update s.isConnected (s.seq + 1) true x
    rw [HashMap.get_put, Function.update_apply]
    split_ifs <;> rfl
  · unfold idOf
    rw [hobject]
    rfl

theorem core_proposeVersion (s : Controller σ) (c : ℕ) (host : Host) :
    (s.proposeVersion c host).core = s.core := by
  unfold proposeVersion
  split_ifs <;> rfl

theorem view_connected (hv : s.Valid) (c : ℕ) :
    (s.connected c).Valid ∧ (s.connected c).view = s.view := by
  have hl := hv.linked c
  unfold connected
  cases hconn : s.conns.get c with
  | none => exact ⟨hv, rfl⟩
  | some conn =>
    rw [hconn] at hl
    generalize ho : s.switchObjects.get c = o at hl
    cases hl with
    | running host version id => exact ⟨hv, rfl⟩
    | closed host o ho' => exact ⟨hv, rfl⟩
    | early host =>
      dsimp only
      rw [if_pos rfl]
      have hput : Valid { s with
          conns := s.conns.put c ⟨host, .running, some c, true⟩
          switchObjects := s.switchObjects.put c (.new c) } := by
        refine hv.update c le_rfl (hv.le_seq c _ hconn) ?_ ?_ ?_
        · intro x hx
          show (s.conns.put _ _).get x = _
          rw [HashMap.get_put, if_neg hx]
        · intro x hx
          show (s.switchObjects.put _ _).get x = _
          rw [HashMap.get_put, if_neg hx]
        · show Linked c ((s.conns.put _ _).get c) ((s.switchObjects.put _ _).get c)
          rw [HashMap.get_put_self, HashMap.get_put_self]
          exact .running host .of10 none
      refine ⟨hput.core (core_proposeVersion ..), (view_of_core (core_proposeVersion ..)).trans ?_⟩
      refine View.ext ?_ ?_ rfl rfl
      · funext x
        show (((s.conns.put _ _).get x).map _).getD false = s.isConnected x
        unfold isConnected
        rw [HashMap.get_put]
        split_ifs with hx
        · rw [hx, hconn]
          rfl
        · rfl
      · funext x
        show ((s.switchObjects.put _ _).get x).bind _ = s.idOf x
        unfold idOf
        rw [HashMap.get_put]
        split_ifs with hx
        · rw [hx, ho]
          rfl
        · rfl

/-! ## Disconnections -/

theorem core_processDisconnects (c i : ℕ) (fs : List (Controller σ → ℕ → Bool × σ))
    (s : Controller σ) :
    (processDisconnects c i fs s).core =
      { s.core with disconnects := (processDisconnects c i fs s).disconnects } := by
  induction fs generalizing i s with
  | nil => rfl
  | cons f fs ih =>
    unfold processDisconnects
    dsimp only
    split_ifs
    · rfl
    · rw [ih]
      rfl

theorem view_close (hv : s.Valid) (hopen : s.isConnected c = true) :
    (s.close c).Valid ∧
    (s.close c).view = { s.view with isConnected := Function.update s.isConnected c false } := by
  have hl := hv.linked c
  unfold close
  cases hconn : s.conns.get c with
  | none =>
    unfold isConnected at hopen
    rw [hconn] at hopen
    cases hopen
  | some conn =>
    dsimp only
    rw [hconn] at hl
    refine ⟨hv.update c le_rfl (hv.le_seq c conn hconn) ?_ (fun _ _ => rfl) ?_, ?_⟩
    · intro x hx
      show (s.conns.put _ _).get x = _
      rw [HashMap.get_put, if_neg hx]
    · show Linked c ((s.conns.put _ _).get c) (s.switchObjects.get c)
      rw [HashMap.get_put_self]
      generalize s.switchObjects.get c = o at hl
      cases hl with
      | early host => exact .closed host none fun _ => nofun
      | running host version id =>
        refine .closed host _ fun o' ho' => .inl ?_
        cases ho'
        rfl
      | closed host o ho => exact .closed host o ho
    · refine View.ext ?_ rfl rfl rfl
      funext x
      show (((s.conns.put _ _).get x).map _).getD false = Function.update s.isConnected c false x
      rw [HashMap.get_put, Function.update_apply]
      split_ifs <;> rfl

/-- What a disconnection does. -/
theorem view_disconnected (hv : s.Valid) (h : Handlers σ) (hopen : s.isConnected c = true) :
    (s.disconnected h c).Valid ∧
    match s.idOf c with
    | none => (s.disconnected h c).view =
      { s.view with isConnected := Function.update s.isConnected c false }
    | some d => (s.disconnected h c).view =
      { isConnected := Function.update s.isConnected c false
        id := s.idOf
        entry := Function.update s.switches.get d none
        disconnects := (processDisconnects c 0 h.processDisconnect s).disconnects } := by
  have hid := hv.getId_eq c
  rw [if_pos hopen] at hid
  unfold disconnected handleDisconnectEvent
  rw [if_pos hopen, hid]
  cases hd : s.idOf c with
  | none => exact view_close hv hopen
  | some d =>
    dsimp only
    have hcore := core_processDisconnects c 0 h.processDisconnect s
    generalize processDisconnects c 0 h.processDisconnect s = s₁ at hcore
    have hconns : s₁.conns = s.conns := congrArg Core.conns hcore
    have hobjects : s₁.switchObjects = s.switchObjects := congrArg Core.switchObjects hcore
    have hswitches : s₁.switches = s.switches := congrArg Core.switches hcore
    have hseq : s₁.seq = s.seq := congrArg Core.seq hcore
    have hv₁ : Valid { s₁ with switches := s₁.switches.remove d } := by
      refine ⟨?_, ?_⟩
      · show ∀ c conn, s₁.conns.get c = some conn → c ≤ s₁.seq
        rw [hconns, hseq]
        exact hv.le_seq
      · show ∀ c, Linked c (s₁.conns.get c) (s₁.switchObjects.get c)
        rw [hconns, hobjects]
        exact hv.linked
    have hopen₁ : Controller.isConnected { s₁ with switches := s₁.switches.remove d } = s.isConnected := by
      funext x
      unfold isConnected
      rw [hconns]
    obtain ⟨hclose, hview⟩ := view_close (c := c) hv₁ (by rw [hopen₁]; exact hopen)
    refine ⟨hclose, hview.trans ?_⟩
    refine View.ext ?_ ?_ ?_ rfl
    · exact congrArg (Function.update · c false) hopen₁
    · show Controller.idOf _ = _
      funext x
      unfold idOf
      rw [hobjects]
    · show (s₁.switches.remove d).get = _
      rw [hswitches, HashMap.get_remove_eq]

/-! ## Sessions -/

/-- The open connections with their datapath ids, and the switches map. -/
def View.sessions (v : View) : Registrations ℕ Dpid :=
  ⟨fun c => if v.isConnected c then v.id c else none, v.entry⟩

def sessions (s : Controller σ) : Registrations ℕ Dpid := s.view.sessions

theorem Valid.name_sessions (hv : s.Valid) (c : ℕ) : s.sessions.name c = s.getId c :=
  (hv.getId_eq c).symm

theorem Valid.handle (hv : s.Valid) (h : Handlers σ) (e : Event) : (s.handle h e).Valid := by
  cases e with
  | accept host => exact (view_accept hv host).1
  | connected c => exact (view_connected hv c).1
  | message c m => exact (view_process hv h c m).1
  | disconnected c =>
    show (s.disconnected h c).Valid
    cases hopen : s.isConnected c with
    | true => exact (view_disconnected hv h hopen).1
    | false =>
      unfold disconnected
      rw [hopen]
      exact hv

theorem sessions_accept (hv : s.Valid) (host : Host) : (s.accept host).sessions = s.sessions := by
  obtain ⟨-, hview, hnone⟩ := view_accept hv host
  unfold sessions
  rw [hview]
  refine congrArg (Registrations.mk · s.switches.get) ?_
  funext x
  show (if Function.update s.isConnected (s.seq + 1) true x then s.idOf x else none) =
    if s.isConnected x then s.idOf x else none
  rw [Function.update_apply]
  by_cases hx : x = s.seq + 1
  · rw [hx, hnone]
    split_ifs <;> rfl
  · rw [if_neg hx]

/-- A features reply joins. -/
theorem sessions_process (hv : s.Valid) (h : Handlers σ) (c : ℕ) (m : OFMessage) :
    ((s.process h c m).2.sessions = s.sessions ∧ ∀ d, ¬s.Names c m c d) ∨
      ∃ d, s.Names c m c d ∧ (s.process h c m).2.sessions = s.sessions.join c d := by
  obtain ⟨-, ⟨hview, hnot⟩ | ⟨d, hnames, hview⟩⟩ := view_process hv h c m
  · exact .inl ⟨congrArg View.sessions hview, hnot⟩
  · refine .inr ⟨d, hnames, (congrArg View.sessions hview).trans ?_⟩
    have hopen := isConnected_of_names hnames
    refine congrArg (Registrations.mk · (Function.update s.switches.get d (some c))) ?_
    funext x
    show (if s.isConnected x then Function.update s.idOf c (some d) x else none) =
      Function.update s.sessions.name c (some d) x
    rw [Function.update_apply, Function.update_apply]
    by_cases hx : x = c
    · rw [if_pos hx, if_pos hx, hx, if_pos hopen]
    · rw [if_neg hx, if_neg hx]
      rfl

/-- The end of a connection with an id leaves. -/
theorem sessions_disconnected (hv : s.Valid) (h : Handlers σ) (c : ℕ) :
    s.getId c = none ∧ (s.disconnected h c).sessions = s.sessions ∨
      ∃ d, s.getId c = some d ∧ (s.disconnected h c).sessions = s.sessions.leave c d := by
  rw [hv.getId_eq]
  have hclose : ∀ x, (if Function.update s.isConnected c false x then s.idOf x else none) =
      Function.update s.sessions.name c none x := by
    intro x
    rw [Function.update_apply, Function.update_apply]
    by_cases hx : x = c
    · rw [if_pos hx, if_pos hx, if_neg Bool.false_ne_true]
    · rw [if_neg hx, if_neg hx]
      rfl
  cases hopen : s.isConnected c with
  | false =>
    refine .inl ⟨rfl, ?_⟩
    unfold disconnected
    rw [hopen]
    rfl
  | true =>
    obtain ⟨-, hview⟩ := view_disconnected hv h hopen
    rw [if_pos rfl]
    cases hid : s.idOf c with
    | none =>
      rw [hid] at hview
      refine .inl ⟨rfl, (congrArg View.sessions hview).trans ?_⟩
      refine congrArg (Registrations.mk · s.switches.get) ?_
      funext x
      refine (hclose x).trans ?_
      show Function.update s.sessions.name c none x = s.sessions.name x
      rw [Function.update_apply]
      split_ifs with hx
      · rw [hx, hv.name_sessions, hv.getId_eq, if_pos hopen, hid]
      · rfl
    | some d =>
      rw [hid] at hview
      refine .inr ⟨d, rfl, (congrArg View.sessions hview).trans ?_⟩
      exact congrArg (Registrations.mk · (Function.update s.switches.get d none)) (funext hclose)

/-! ## The directory -/

end Controller

end Torpedo
