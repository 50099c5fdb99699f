import Mathlib.Data.List.Rotate
import Torpedo.Controller.Disconnects
import Torpedo.Util.ByteBuffer

/-!
# The ports of the current switch

`OFProtocol` keeps the ports of a switch object, and looks them up by a datapath id among the objects of all
connections there have been. What it finds is of the switch that is connected now just as long as no switch
with known ports ends its connection, and a switch that connects again has no ports before the old connection
has ended.
-/

namespace Torpedo

namespace OFProtocol

variable {p : OFProtocol} {sw x : ℕ}

/-- There is a map of ports for the switch. -/
def Ported (p : OFProtocol) (sw : ℕ) : Prop := p.portInformations.get sw ≠ none

/-- `getPortInformation`, which leaves an empty map for a switch that has none. -/
def getPortInformation (p : OFProtocol) (sw : ℕ) (port : OFPort) : Option OFPortDesc × OFProtocol :=
  match p.portInformations.get sw with
  | some inner => (inner.get port, p)
  | none => (none, { p with portInformations := p.portInformations.put sw ∅ })

/-! ## Which switches have ports -/

theorem ported_put {inner : HashMap OFPort OFPortDesc} :
    Ported { p with portInformations := p.portInformations.put sw inner } x ↔ p.Ported x ∨ x = sw := by
  unfold Ported
  dsimp only
  rw [HashMap.get_put]
  split_ifs with hx
  · exact iff_of_true (Option.some_ne_none inner) (.inr hx)
  · simp [hx]

theorem ported_setPortInformation (desc : OFPortDesc) :
    (p.setPortInformation sw desc).Ported x ↔ p.Ported x ∨ x = sw := ported_put

theorem ported_removePortInformation (desc : OFPortDesc) :
    (p.removePortInformation sw desc).Ported x ↔ p.Ported x := by
  unfold removePortInformation
  cases hinner : p.portInformations.get sw with
  | none => exact Iff.rfl
  | some inner =>
    refine ported_put.trans (or_iff_left_of_imp ?_)
    rintro rfl
    unfold Ported
    rw [hinner]
    exact Option.some_ne_none inner

theorem ported_setPortInformations (ports : List OFPortDesc) :
    (p.setPortInformations sw ports).Ported x ↔ p.Ported x ∨ ports ≠ [] ∧ x = sw := by
  unfold setPortInformations
  induction ports generalizing p with
  | nil => simp
  | cons port ports ih =>
    rw [List.foldl_cons, ih, ported_setPortInformation]
    simp only [ne_eq, List.cons_ne_nil, not_false_eq_true, true_and]
    tauto

theorem ported_updatePort (ps : OFPortStatus) :
    (p.updatePort sw ps).Ported x ↔ p.Ported x ∨ ps.reason ≠ .delete ∧ x = sw := by
  unfold updatePort
  cases hreason : ps.reason with
  | delete =>
    rw [ported_removePortInformation]
    simp
  | modify =>
    rw [ported_setPortInformation, ported_removePortInformation]
    simp
  | add =>
    rw [ported_setPortInformation]
    simp

theorem ported_deliver (sw' xid : ℕ) (m : OFMessage) : (p.deliver sw' xid m).Ported x ↔ p.Ported x := by
  unfold deliver
  split
  · exact Iff.rfl
  · split <;> exact Iff.rfl

theorem ported_getPortInformation (port : OFPort) :
    (p.getPortInformation sw port).2.Ported x ↔ p.Ported x ∨ x = sw := by
  unfold getPortInformation
  cases hinner : p.portInformations.get sw with
  | some inner =>
    refine (or_iff_left_of_imp ?_).symm
    rintro rfl
    unfold Ported
    rw [hinner]
    exact Option.some_ne_none inner
  | none => exact ported_put

end OFProtocol

namespace Controller

variable {σ : Type} {s : Controller σ} {c : ℕ} {m : OFMessage}

/-! ## Looking ports up by a datapath id -/

/-- The loop of `getPortInformations` over the switches with ports: the switch that is found, with its map. -/
def findPorts (s : Controller σ) (datapathId : Dpid) :
    List ℕ → Except Stop (Option (ℕ × HashMap OFPort OFPortDesc))
  | [] => .ok none
  | sw :: sws =>
    match s.idOf sw with
    -- `getId` throws before the features reply
    | none => .error .exception
    | some id =>
      if id = datapathId then
        match s.protocol.portInformations.get sw with
        | some inner => .ok (some (sw, inner))
        | none => findPorts s datapathId sws
      else findPorts s datapathId sws

/-- `getPortInformations` of a datapath id, `none` for the empty set. -/
def getPortInformations (ord : HashOrder) (s : Controller σ) (datapathId : Dpid) :
    Except Stop (Option (ℕ × HashMap OFPort OFPortDesc)) :=
  s.findPorts datapathId (ord.iter s.protocol.portInformations.keySet)

/-- The switch that is connected now with an id: no later connection has it. -/
def Current (s : Controller σ) (datapathId : Dpid) (c : ℕ) : Prop := Latest s.getId datapathId c

/-- In whatever order the switches are looked at, the ports of an id are those of the current switch. -/
def ReturnsCurrent (s : Controller σ) : Prop :=
  ∀ ord datapathId, ∃ r, s.getPortInformations ord datapathId = .ok r ∧
    ∀ c inner, r = some (c, inner) ↔
      s.Current datapathId c ∧ s.protocol.portInformations.get c = some inner

/-- If only current switches have ports, then the loop finds those of the current one. -/
theorem findPorts_eq (hv : s.Valid) (hkept : KeptForLatest s.getId s.protocol.Ported) (d : Dpid) (sws : List ℕ)
    (hsws : ∀ sw ∈ sws, s.protocol.Ported sw) : ∃ r, s.findPorts d sws = .ok r ∧
      ∀ c inner, r = some (c, inner) ↔
        c ∈ sws ∧ s.Current d c ∧ s.protocol.portInformations.get c = some inner := by
  induction sws with
  | nil => exact ⟨none, rfl, fun c inner => ⟨nofun, fun h => absurd h.1 List.not_mem_nil⟩⟩
  | cons sw sws ih =>
    rw [List.forall_mem_cons] at hsws
    obtain ⟨hported, hsws⟩ := hsws
    obtain ⟨d', hcurrent⟩ := hkept sw hported
    obtain ⟨inner, hinner⟩ := Option.ne_none_iff_exists'.1 hported
    have hid : s.idOf sw = some d' := by
      have hget := hv.getId_eq sw
      rw [hcurrent.1] at hget
      split_ifs at hget
      exact hget.symm
    unfold findPorts
    rw [hid, hinner]
    dsimp only
    split_ifs with hd
    · subst hd
      refine ⟨_, rfl, fun c inner' => ?_⟩
      constructor
      · rintro ⟨⟩
        exact ⟨List.mem_cons_self, hcurrent, hinner⟩
      · rintro ⟨-, hc, hinner'⟩
        cases hcurrent.unique hc
        cases hinner.symm.trans hinner'
        rfl
    · obtain ⟨r, hr, hiff⟩ := ih hsws
      refine ⟨r, hr, fun c inner' => (hiff c inner').trans ?_⟩
      rw [List.mem_cons]
      refine and_congr_left fun hc => (or_iff_right ?_).symm
      rintro rfl
      exact hd (Option.some.inj (hcurrent.1.symm.trans hc.1.1))

/-- The order in which the elements behind the first `i` come first. -/
def rotated (i : ℕ) : HashOrder := ⟨fun l => l.rotate i, fun l => l.rotate_perm i⟩

theorem exists_first {sws : List ℕ} {sw : ℕ} (h : sw ∈ sws) :
    ∃ ord : HashOrder, ∃ rest, ord.iter sws = sw :: rest := by
  obtain ⟨i, hi, rfl⟩ := List.getElem_of_mem h
  refine ⟨rotated i, sws.drop (i + 1) ++ sws.take i, ?_⟩
  show sws.rotate i = _
  rw [List.rotate_eq_drop_append_take hi.le, List.drop_eq_getElem_cons hi]
  rfl

/-- The ports are those of the current switches in any order just if only current switches have ports. -/
theorem returnsCurrent_iff (hv : s.Valid) :
    s.ReturnsCurrent ↔ KeptForLatest s.getId s.protocol.Ported := by
  have hmem : ∀ sw, sw ∈ s.protocol.portInformations.keySet ↔ s.protocol.Ported sw := fun sw => by
    rw [HashMap.mem_keySet, Option.isSome_iff_ne_none]
    exact Iff.rfl
  constructor
  · intro h sw hsw
    obtain ⟨ord, rest, hfirst⟩ := exists_first ((hmem sw).2 hsw)
    obtain ⟨inner, hinner⟩ := Option.ne_none_iff_exists'.1 hsw
    cases hid : s.idOf sw with
    | none =>
      obtain ⟨r, hr, -⟩ := h ord 0
      unfold getPortInformations at hr
      rw [hfirst, findPorts, hid] at hr
      cases hr
    | some d =>
      obtain ⟨r, hr, hiff⟩ := h ord d
      unfold getPortInformations at hr
      rw [hfirst, findPorts, hid] at hr
      dsimp only at hr
      rw [if_pos rfl, hinner] at hr
      cases hr
      exact ⟨d, ((hiff sw inner).1 rfl).1⟩
  · intro hkept ord d
    obtain ⟨r, hr, hiff⟩ := findPorts_eq hv hkept d (ord.iter s.protocol.portInformations.keySet) fun sw hsw =>
      (hmem sw).1 ((ord.mem_iter).1 hsw)
    refine ⟨r, hr, fun c inner => (hiff c inner).trans ?_⟩
    rw [ord.mem_iter, hmem]
    refine and_iff_right_of_imp fun h => ?_
    unfold OFProtocol.Ported
    rw [h.2]
    exact Option.some_ne_none inner

/-! ## Which messages bring ports -/

/-- The message has a port to keep. -/
def HasPorts : OFMessage → Prop
  | .featuresReply _ _ _ (some ports) => ports ≠ []
  | .portStatus ps => ps.reason ≠ .delete
  | .statsReply _ (.portDesc entries) _ => entries ≠ []
  | _ => False

/-- The connection is open and has its switch object. -/
def Running (s : Controller σ) (c : ℕ) : Prop := s.isConnected c = true ∧ s.getSwitch c = some c

@[simp] theorem protocol_write (s : Controller σ) (c : ℕ) (r : OFRequest) :
    (s.write c r).protocol = s.protocol := rfl

@[simp] theorem protocol_ite_write (p : Prop) [Decidable p] (s : Controller σ) (c : ℕ) (r : OFRequest) :
    (if p then s.write c r else s).protocol = s.protocol := by
  split_ifs <;> rfl

@[simp] theorem protocol_addSwitch (s : Controller σ) (id : Dpid) (sw : ℕ) :
    (s.addSwitch id sw).protocol = s.protocol := rfl

@[simp] theorem protocol_setProtocol (s : Controller σ) (f : OFProtocol → OFProtocol) :
    (s.setProtocol f).protocol = f s.protocol := rfl

@[simp] theorem protocol_writeAll (s : Controller σ) (c : ℕ) (ms : List OFRequest) :
    (s.writeAll c ms).protocol = s.protocol := by
  unfold writeAll
  induction ms generalizing s with
  | nil => rfl
  | cons m ms ih => exact ih (s.write c m)

@[simp] theorem protocol_call (f : Controller σ → ℕ → OFMessage → HandlerResult × σ × List OFRequest)
    (s : Controller σ) (c : ℕ) (m : OFMessage) : (s.call f c m).2.protocol = s.protocol :=
  protocol_writeAll ..

@[simp] theorem protocol_setSwitchObject (s : Controller σ) (sw : ℕ) (f : OFSwitch → OFSwitch) :
    (s.setSwitchObject sw f).protocol = s.protocol := by
  unfold setSwitchObject
  split <;> rfl

theorem ported_processFeaturesReply (sw : ℕ) (version : OFVersion) (xid : ℕ) (d : Dpid)
    (ports : Option (List OFPortDesc)) (x : ℕ) :
    (s.processFeaturesReply c sw m version xid d ports).protocol.Ported x ↔
      s.protocol.Ported x ∨ HasPorts (.featuresReply version xid d ports) ∧ x = sw := by
  unfold processFeaturesReply
  simp only [protocol_setProtocol, protocol_addSwitch, protocol_ite_write, protocol_write,
    OFProtocol.ported_deliver]
  cases ports with
  | none =>
    simp only [protocol_write, protocol_setProtocol, protocol_setSwitchObject]
    simp [HasPorts, OFProtocol.Ported, OFProtocol.setFeaturesReply]
  | some ports =>
    simp only [protocol_setProtocol, protocol_setSwitchObject, OFProtocol.ported_setPortInformations]
    exact Iff.rfl

theorem ported_processStatsReply {p : OFProtocol} (sw xid : ℕ) (stats : OFStats) (replyMore : Bool) (x : ℕ) :
    (processStatsReply p sw m xid stats).Ported x ↔
      p.Ported x ∨ HasPorts (.statsReply xid stats replyMore) ∧ x = sw := by
  unfold processStatsReply
  cases stats with
  | portDesc entries =>
    dsimp only
    rw [OFProtocol.ported_deliver, OFProtocol.ported_setPortInformations]
    exact Iff.rfl
  | desc description => simp [HasPorts, OFProtocol.Ported, OFProtocol.setDescription]
  | other type =>
    dsimp only
    rw [OFProtocol.ported_deliver]
    simp [HasPorts]

/-- A message adds the ports that it has, of a switch that is there. -/
theorem ported_process (hv : s.Valid) (h : Handlers σ) (c : ℕ) (m : OFMessage) (x : ℕ) :
    (s.process h c m).2.protocol.Ported x ↔
      s.protocol.Ported x ∨ (HasPorts m ∧ s.Running c) ∧ x = c := by
  have hl := hv.linked c
  unfold process Running isConnected getSwitch
  generalize hconn : s.conns.get c = conn at hl
  generalize ho : s.switchObjects.get c = o at hl
  cases hl with
  | absent => simp
  | closed host o ho' => simp
  | early host =>
    cases m <;> simp [processHello, OFProtocol.Ported]
  | running host version id =>
    have hgoal : ∀ {a : Prop}, (a ↔ s.protocol.Ported x ∨ HasPorts m ∧ x = c) →
        (a ↔ s.protocol.Ported x ∨ (HasPorts m ∧ true = true ∧ some c = some c) ∧ x = c) := by
      simp
    refine hgoal ?_
    cases m with
    | hello version => simp [HasPorts, processHello, OFProtocol.Ported]
    | error => simp [HasPorts]
    | echoRequest version xid data => simp [HasPorts]
    | featuresReply version xid d ports => simp [ported_processFeaturesReply]
    | portStatus ps =>
      show (call h.handleGeneric (s.setProtocol fun p => p.updatePort c ps) c _).2.protocol.Ported x ↔ _
      rw [protocol_call]
      exact OFProtocol.ported_updatePort ps
    | statsReply xid stats replyMore => exact ported_processStatsReply c xid stats replyMore x
    | packetIn data =>
      dsimp only
      split_ifs <;> simp [HasPorts]
    | flowRemoved =>
      dsimp only
      split_ifs <;> simp [HasPorts]
    | other type => simp [HasPorts]

/-! ## The current switches -/

theorem Valid.getId_eq_name (hv : s.Valid) : s.getId = s.sessions.name :=
  funext fun c => (hv.name_sessions c).symm

theorem getId_of_sessions {s' : Controller σ} (hv : s.Valid) (hv' : s'.Valid)
    (h : s'.sessions.name = s.sessions.name) : s'.getId = s.getId := by
  rw [hv'.getId_eq_name, hv.getId_eq_name, h]

/-- A features reply gives its connection an id. -/
theorem getId_process (hv : s.Valid) (h : Handlers σ) (c : ℕ) (m : OFMessage) :
    ((s.process h c m).2.getId = s.getId ∧ ∀ d, ¬s.Names c m c d) ∨
      ∃ d, s.Names c m c d ∧ (s.process h c m).2.getId = Function.update s.getId c (some d) := by
  have hv' : (s.process h c m).2.Valid := (view_process hv h c m).1
  rw [hv'.getId_eq_name, hv.getId_eq_name]
  obtain ⟨heq, hnot⟩ | ⟨d, hnames, heq⟩ := sessions_process hv h c m
  · exact .inl ⟨congrArg Registrations.name heq, hnot⟩
  · exact .inr ⟨d, hnames, congrArg Registrations.name heq⟩

/-- The end of a connection takes its id away. -/
theorem getId_disconnected (hv : s.Valid) (h : Handlers σ) (c : ℕ) :
    (s.disconnected h c).getId = Function.update s.getId c none := by
  have hv' : (s.disconnected h c).Valid := hv.handle h (.disconnected c)
  rw [hv'.getId_eq_name, hv.getId_eq_name]
  obtain ⟨hnone, heq⟩ | ⟨d, -, heq⟩ := sessions_disconnected hv h c
  · rw [heq, ← hv.getId_eq_name, ← hnone, Function.update_eq_self]
  · exact congrArg Registrations.name heq

/-- So does the monitor, if it has one. -/
theorem getId_expire (hv : s.Valid) (c : ℕ) : (s.expire c).getId = Function.update s.getId c none := by
  obtain ⟨hv', ⟨hview, hnone⟩ | ⟨hopen, hview⟩⟩ := view_expire hv c
  · rw [hv'.getId_eq_name, hv.getId_eq_name]
    have hname : (s.expire c).sessions.name = s.sessions.name :=
      congrArg (fun v => v.sessions.name) hview
    rw [hname, ← hv.getId_eq_name, ← hnone, Function.update_eq_self]
  · funext x
    have hconnected : (s.expire c).isConnected = Function.update s.isConnected c false :=
      congrArg View.isConnected hview
    have hid : (s.expire c).idOf = s.idOf := congrArg View.id hview
    rw [hv'.getId_eq, hconnected, hid, Function.update_apply, Function.update_apply]
    by_cases hx : x = c
    · rw [if_pos hx, if_pos hx, if_neg Bool.false_ne_true]
    · rw [if_neg hx, if_neg hx, hv.getId_eq]

theorem protocol_close (s : Controller σ) (c : ℕ) : (s.close c).protocol = s.protocol := by
  unfold close
  split <;> rfl

theorem protocol_processDisconnects (c i : ℕ) (fs : List (Controller σ → ℕ → Bool × σ)) (s : Controller σ) :
    (processDisconnects c i fs s).protocol = s.protocol := by
  induction fs generalizing i s with
  | nil => rfl
  | cons f fs ih =>
    unfold processDisconnects
    dsimp only
    split_ifs
    · rfl
    · exact ih _ _

/-- The ports stay when a connection ends. -/
theorem protocol_disconnected (h : Handlers σ) (s : Controller σ) (c : ℕ) :
    (s.disconnected h c).protocol = s.protocol := by
  unfold disconnected
  split_ifs
  · rw [protocol_close]
    unfold handleDisconnectEvent
    split
    · rfl
    · exact protocol_processDisconnects ..
  · rfl

theorem protocol_expire (s : Controller σ) (c : ℕ) : (s.expire c).protocol = s.protocol := by
  unfold expire
  split
  · split_ifs
    · rw [protocol_setSwitchObject, protocol_close]
    · rfl
  · rfl

theorem ported_proposeVersion (s : Controller σ) (c : ℕ) (host : Host) :
    (s.proposeVersion c host).protocol.Ported = s.protocol.Ported := by
  unfold proposeVersion
  split_ifs <;> rfl

theorem ported_connected (s : Controller σ) (c : ℕ) : (s.connected c).protocol.Ported = s.protocol.Ported := by
  unfold connected
  split
  · rfl
  · split_ifs
    · exact ported_proposeVersion ..
    · rfl

/-! ## What a step does to the ports -/

/-- In the next event something is kept for a switch that is not current: a connection with ports ends, ports
come of a switch without an id or of one with the id of a later connection, or a switch takes the id of an
earlier connection with ports. -/
def Misports (s : Controller σ) : Event → Prop
  | .disconnected c => s.protocol.Ported c
  | .message c (.featuresReply version xid d ports) => s.Running c ∧
      ((s.protocol.Ported c ∨ HasPorts (.featuresReply version xid d ports)) ∧
          (∃ c' > c, s.getId c' = some d) ∨
        ∃ c' < c, s.protocol.Ported c' ∧ s.getId c' = some d)
  | .message c m => (HasPorts m ∧ s.Running c) ∧ ¬∃ d, s.Current d c
  | .accept _ | .connected _ => False

theorem names_iff {d : Dpid} : s.Names c m c d ↔
    s.Running c ∧ ∃ version xid ports, m = .featuresReply version xid d ports := by
  constructor
  · rintro ⟨conn, version, xid, ports, hconn, hopen, hsw, rfl⟩
    refine ⟨⟨?_, ?_⟩, version, xid, ports, rfl⟩
    · rw [isConnected_of_get hconn]
      exact hopen
    · rw [getSwitch_of_get hconn]
      exact hsw
  · rintro ⟨⟨hopen, hsw⟩, version, xid, ports, rfl⟩
    unfold isConnected at hopen
    cases hconn : s.conns.get c with
    | none =>
      rw [hconn] at hopen
      cases hopen
    | some conn =>
      rw [hconn] at hopen
      rw [getSwitch_of_get hconn] at hsw
      exact ⟨conn, version, xid, ports, hconn, hopen, hsw, rfl⟩

/-- Other messages only bring ports. -/
theorem misports_iff_of_ne (h : ∀ version xid d ports, m ≠ .featuresReply version xid d ports) :
    s.Misports (.message c m) ↔ (HasPorts m ∧ s.Running c) ∧ ¬∃ d, s.Current d c := by
  cases m with
  | featuresReply version xid d ports => exact absurd rfl (h version xid d ports)
  | _ => exact Iff.rfl

/-- A message keeps the ports for current switches just if it is not one of those. -/
theorem kept_process_iff (hv : s.Valid) (hkept : KeptForLatest s.getId s.protocol.Ported) (h : Handlers σ)
    (c : ℕ) (m : OFMessage) :
    KeptForLatest (s.process h c m).2.getId (s.process h c m).2.protocol.Ported ↔ ¬s.Misports (.message c m) := by
  have hported : (s.process h c m).2.protocol.Ported =
      fun x => s.protocol.Ported x ∨ (HasPorts m ∧ s.Running c) ∧ x = c :=
    funext fun x => propext (ported_process hv h c m x)
  rw [hported]
  obtain ⟨hid, hnot⟩ | ⟨d, hnames, hid⟩ := getId_process hv h c m
  · rw [hid]
    by_cases hadds : HasPorts m ∧ s.Running c
    · have hne : ∀ version xid d ports, m ≠ .featuresReply version xid d ports := fun version xid d ports hm =>
        hnot d (names_iff.2 ⟨hadds.2, version, xid, ports, hm⟩)
      simp only [hadds, true_and]
      rw [hkept.keep_iff, misports_iff_of_ne hne, and_iff_right hadds, not_not]
      exact Iff.rfl
    · simp only [hadds, false_and, or_false]
      refine iff_of_true hkept fun hm => ?_
      by_cases hne : ∀ version xid d ports, m ≠ .featuresReply version xid d ports
      · exact hadds ((misports_iff_of_ne hne).1 hm).1
      · push Not at hne
        obtain ⟨version, xid, d, ports, rfl⟩ := hne
        exact hnot d (names_iff.2 ⟨hm.1, version, xid, ports, rfl⟩)
  · rw [hid]
    obtain ⟨hrunning, version, xid, ports, rfl⟩ := names_iff.1 hnames
    rw [hkept.join_iff fun x hx => by simp [hx]]
    show _ ↔ ¬(s.Running c ∧ _)
    rw [and_iff_right hrunning, not_or]
    simp [hrunning]

end Controller

/-! ## Runs -/

/-- What the watchers and the monitor do, and the modules that look up a port. -/
inductive PortEvent
  | watch (e : WatchEvent)
  | getPortInformation (sw : ℕ) (port : OFPort)
deriving DecidableEq

namespace Watched

open Controller

variable {σ : Type} {w : Watched σ} {h : Handlers σ} {watcher : ℕ → ℕ}

/-- The next step. A module looks up ports of switch objects that there are. -/
def portStep (h : Handlers σ) (watcher : ℕ → ℕ) (w : Watched σ) : PortEvent → Watched σ
  | .watch e => w.step h watcher e
  | .getPortInformation sw port =>
    if w.controller.switchObjects.get sw = none then w
    else { w with controller := w.controller.setProtocol fun p => (p.getPortInformation sw port).2 }

/-- In the next step something is kept for a switch that is not current. -/
def Misports (watcher : ℕ → ℕ) (w : Watched σ) : PortEvent → Prop
  | .watch (.event (.disconnected c)) => watcher c ∉ w.dead ∧ w.controller.Misports (.disconnected c)
  | .watch (.event e) => w.controller.Misports e
  | .watch (.expire c) => w.controller.protocol.Ported c
  | .watch (.stale _) => False
  | .getPortInformation sw _ =>
    w.controller.switchObjects.get sw ≠ none ∧ ¬∃ d, w.controller.Current d sw

theorem Sound.portStep (hs : w.Sound) (e : PortEvent) : (portStep h watcher w e).Sound := by
  cases e with
  | watch e => exact hs.step h watcher e
  | getPortInformation sw port =>
    dsimp only [Watched.portStep]
    split_ifs
    · exact hs
    · exact ⟨hs.valid.core rfl, hs.logged⟩

/-- A step keeps the ports for current switches just if it is not one of those. -/
theorem kept_portStep_iff (hs : w.Sound)
    (hkept : KeptForLatest w.controller.getId w.controller.protocol.Ported) (e : PortEvent) :
    KeptForLatest (portStep h watcher w e).controller.getId (portStep h watcher w e).controller.protocol.Ported ↔
      ¬w.Misports watcher e := by
  cases e with
  | getPortInformation sw port =>
    dsimp only [portStep]
    show _ ↔ ¬(w.controller.switchObjects.get sw ≠ none ∧ _)
    split_ifs with hsw
    · exact iff_of_true hkept fun hm => hm.1 hsw
    · have hported : (w.controller.protocol.getPortInformation sw port).2.Ported =
          fun x => w.controller.protocol.Ported x ∨ x = sw :=
        funext fun x => propext (OFProtocol.ported_getPortInformation port)
      show KeptForLatest w.controller.getId (w.controller.protocol.getPortInformation sw port).2.Ported ↔ _
      rw [hported, hkept.keep_iff, and_iff_right hsw, not_not]
      exact Iff.rfl
  | watch e =>
    cases e with
    | expire c =>
      show KeptForLatest (w.controller.expire c).getId (w.controller.expire c).protocol.Ported ↔ _
      rw [getId_expire hs.valid, protocol_expire]
      exact hkept.leave_iff
    | stale c =>
      refine iff_of_true ?_ id
      dsimp only [portStep, step]
      split_ifs <;> exact hkept
    | event e =>
      cases e with
      | accept host =>
        refine iff_of_true ?_ id
        show KeptForLatest (w.controller.accept host).getId w.controller.protocol.Ported
        rw [getId_of_sessions hs.valid (view_accept hs.valid host).1
          (congrArg Registrations.name (sessions_accept hs.valid host))]
        exact hkept
      | message c m => exact kept_process_iff hs.valid hkept h c m
      | connected c =>
        refine iff_of_true ?_ id
        dsimp only [portStep, step]
        split_ifs
        · exact hkept
        · obtain ⟨hv', hview⟩ := view_connected hs.valid c
          have hname : (w.controller.connected c).sessions.name = w.controller.sessions.name :=
            congrArg (fun v => v.sessions.name) hview
          rw [getId_of_sessions hs.valid hv' hname, ported_connected]
          exact hkept
      | disconnected c =>
        show _ ↔ ¬(watcher c ∉ w.dead ∧ w.controller.protocol.Ported c)
        dsimp only [portStep, step]
        split_ifs with hdead
        · exact iff_of_true hkept fun hm => hm.1 hdead
        · rw [getId_disconnected hs.valid, protocol_disconnected, and_iff_right hdead]
          exact hkept.leave_iff

/-- **The ports of a datapath id.** Whatever the modules do, in whatever order the switches are looked at: in
a run of events in any order the ports that are found for an id are in every state those of the switch that
is connected with it, if and only if no connection with ports ends, no ports come of a switch without an id
or with the id of a later connection, and no switch takes the id of an earlier connection with ports. -/
theorem returnsCurrent_iff_clean (h : Handlers σ) (watcher : ℕ → ℕ) (modules : σ) (es : List PortEvent) :
    (∀ pre post, es = pre ++ post →
      (Machine.run (portStep h watcher) (start modules) pre).controller.ReturnsCurrent) ↔
      Machine.Clean (portStep h watcher) (Misports watcher) (start modules) es := by
  refine Machine.always_iff_clean (I := Sound) (P := fun w => w.controller.ReturnsCurrent)
    (fun w e hs => hs.portStep e) ?_ ?_ (sound_start modules) ?_
  · intro w e hs hr he
    have hkept := (returnsCurrent_iff hs.valid).1 hr
    exact (returnsCurrent_iff (hs.portStep e).valid).2 ((kept_portStep_iff hs hkept e).2 he)
  · intro w e hs hr he hr'
    have hkept := (returnsCurrent_iff hs.valid).1 hr
    exact (kept_portStep_iff hs hkept e).1 ((returnsCurrent_iff (hs.portStep e).valid).1 hr') he
  · exact (returnsCurrent_iff (sound_start modules).valid).2 fun _ hported => absurd rfl hported

/-- The switch 5 is gone, and its ports are still found. -/
theorem not_returnsCurrent_disconnected :
    ¬∀ (σ : Type) (h : Handlers σ) (watcher : ℕ → ℕ) (modules : σ) (es : List PortEvent),
      (Machine.run (portStep h watcher) (start modules) es).controller.ReturnsCurrent := by
  intro hall
  let w := Machine.run (portStep .idle fun _ => 0) (start ()) [.watch (.event (.accept "a")),
    .watch (.event (.connected 1)),
    .watch (.event (.message 1 (.featuresReply .of10 0 5 (some [⟨1, ∅, ∅⟩])))),
    .watch (.event (.disconnected 1))]
  have hw : w.controller.ReturnsCurrent := hall Unit .idle (fun _ => 0) () _
  obtain ⟨r, hr, hiff⟩ := hw .insertion 5
  have hfound : (w.controller.getPortInformations .insertion 5).map (Option.map Prod.fst) = .ok (some 1) := rfl
  rw [hr] at hfound
  obtain ⟨⟨c, inner⟩, rfl, rfl⟩ := Option.map_eq_some_iff.1 (Except.ok.inj hfound)
  have hid : w.controller.getId 1 = none := rfl
  exact nomatch hid.symm.trans ((hiff 1 inner).1 rfl).1.1

end Watched

end Torpedo
