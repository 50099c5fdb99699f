import Mathlib.Algebra.Ring.Parity
import Torpedo.Controller.Sessions

/-!
# The proposed version

The first event of a connection proposes version 1.0 if its host is in `helloFailedSwitches`, and
version 1.3 otherwise. The set does not know switches, nor which negotiations have failed: a host is in
it just when an odd number of its connections have come since the last `HELLO` from it.
-/

namespace Torpedo

namespace Controller

variable {σ : Type} {s : Controller σ} {c : ℕ} {m : OFMessage} {host : Host}

/-- The connection is still to get its first event. -/
def Awaits (s : Controller σ) (c : ℕ) (host : Host) : Prop :=
  ∃ conn, s.conns.get c = some conn ∧ conn.status = .connected ∧ conn.host = host

/-- The first event of the connection proposes the version. -/
def Proposes (s : Controller σ) (c : ℕ) (version : OFVersion) : Prop :=
  (s.connected c).written = s.written ++ [(c, .hello version)]

/-- The hosts to which version 1.0 is proposed next. -/
def marked (s : Controller σ) : List Host := s.protocol.helloFailedSwitches

end Controller

/-! ## Negotiations -/

/-- What became of the proposal of version 1.3 to a connection: a `HELLO` agrees, and an error or the
end of the connection before a `HELLO` fails it. -/
inductive Negotiation
  | pending | agreed | failed
deriving DecidableEq, Repr

/-- The controller, and the events so far as they are seen from outside. -/
structure Negotiations (σ : Type) where
  controller : Controller σ
  /-- What became of each proposal of version 1.3. -/
  negotiation : ℕ → Option Negotiation
  /-- How many connections of each host have got their first event since the last `HELLO` from it. -/
  since : Host → ℕ

namespace Negotiations

open Controller

variable {σ : Type}

def start (modules : σ) : Negotiations σ := ⟨.new modules, fun _ => none, fun _ => 0⟩

/-- A negotiation that waits for its outcome has it now. -/
def conclude (n : Negotiations σ) (c : ℕ) (outcome : Negotiation) : ℕ → Option Negotiation :=
  if n.controller.isConnected c = true ∧ n.negotiation c = some .pending then
    Function.update n.negotiation c (some outcome)
  else n.negotiation

/-- The negotiations after an event. -/
def negotiate (n : Negotiations σ) : Event → ℕ → Option Negotiation
  | .connected c =>
    match n.controller.conns.get c with
    | none => n.negotiation
    | some conn =>
      if conn.status = .connected ∧ conn.host ∉ n.controller.marked then
        Function.update n.negotiation c (some .pending)
      else n.negotiation
  | .message c (.hello _) => n.conclude c .agreed
  | .message c .error => n.conclude c .failed
  | .disconnected c => n.conclude c .failed
  | .accept _ | .message _ _ => n.negotiation

/-- The numbers of connections after an event. -/
def count (n : Negotiations σ) : Event → Host → ℕ
  | .connected c =>
    match n.controller.conns.get c with
    | none => n.since
    | some conn =>
      if conn.status = .connected then Function.update n.since conn.host (n.since conn.host + 1)
      else n.since
  | .message c (.hello _) =>
    match n.controller.conns.get c with
    | none => n.since
    | some conn => if conn.isConnected = true then Function.update n.since conn.host 0 else n.since
  | .accept _ | .message _ _ | .disconnected _ => n.since

def step (h : Handlers σ) (n : Negotiations σ) (e : Event) : Negotiations σ :=
  ⟨n.controller.handle h e, n.negotiate e, n.count e⟩

/-- A negotiation with the switch of the connection has failed. -/
def Failed {κ : Type} (owner : ℕ → κ) (n : Negotiations σ) (c : ℕ) : Prop :=
  ∃ c', owner c' = owner c ∧ n.negotiation c' = some .failed

/-- A connection comes when an odd number of connections of its host have come since the last `HELLO`
from it, though no negotiation with its switch has failed. -/
def Unfounded {κ : Type} (owner : ℕ → κ) (n : Negotiations σ) : Event → Prop
  | .connected c => (∃ host, n.controller.Awaits c host ∧ Odd (n.since host)) ∧ ¬n.Failed owner c
  | .accept _ | .message _ _ | .disconnected _ => False

end Negotiations

/-! ## What an event does to the set -/

namespace Controller

variable {σ : Type} {s : Controller σ} {c : ℕ} {m : OFMessage} {host : Host}

theorem written_proposeVersion (s : Controller σ) (c : ℕ) (host : Host) :
    (s.proposeVersion c host).written =
      s.written ++ [(c, .hello (if host ∈ s.marked then .of10 else .of13))] := by
  unfold proposeVersion marked
  split_ifs <;> rfl

theorem marked_proposeVersion (s : Controller σ) (c : ℕ) (host : Host) :
    (s.proposeVersion c host).marked =
      if host ∈ s.marked then setRemove s.marked host else setAdd s.marked host := by
  unfold proposeVersion marked
  split_ifs <;> rfl

theorem connected_of_not_awaits (hc : ∀ host, ¬s.Awaits c host) : s.connected c = s := by
  unfold connected
  cases hconn : s.conns.get c with
  | none => rfl
  | some conn => exact if_neg fun hstatus => hc conn.host ⟨conn, hconn, hstatus, rfl⟩

/-- A connection that awaits its first event is proposed a version. -/
theorem written_connected (hc : s.Awaits c host) :
    (s.connected c).written =
      s.written ++ [(c, .hello (if host ∈ s.marked then .of10 else .of13))] := by
  obtain ⟨conn, hconn, hstatus, rfl⟩ := hc
  unfold connected
  simp only [hconn, hstatus, if_true]
  exact written_proposeVersion ..

theorem marked_connected (hc : s.Awaits c host) :
    (s.connected c).marked =
      if host ∈ s.marked then setRemove s.marked host else setAdd s.marked host := by
  obtain ⟨conn, hconn, hstatus, rfl⟩ := hc
  unfold connected
  simp only [hconn, hstatus, if_true]
  exact marked_proposeVersion ..

theorem proposes_of10_iff : s.Proposes c .of10 ↔ ∃ host, s.Awaits c host ∧ host ∈ s.marked := by
  unfold Proposes
  by_cases hc : ∃ host, s.Awaits c host
  · obtain ⟨host, hc⟩ := hc
    rw [written_connected hc]
    have honly : ∀ host', s.Awaits c host' → host' = host := by
      rintro _ ⟨conn', hconn', -, rfl⟩
      obtain ⟨conn, hconn, -, rfl⟩ := hc
      cases hconn.symm.trans hconn'
      rfl
    constructor
    · intro heq
      refine ⟨host, hc, ?_⟩
      by_contra hnot
      rw [if_neg hnot] at heq
      simp at heq
    · rintro ⟨host', hc', hmarked⟩
      rw [honly host' hc'] at hmarked
      rw [if_pos hmarked]
  · rw [connected_of_not_awaits fun host h => hc ⟨host, h⟩]
    refine iff_of_false (by simp) ?_
    rintro ⟨host, h, -⟩
    exact hc ⟨host, h⟩

theorem helloFailedSwitches_setPortInformations (p : OFProtocol) (sw : ℕ) (ports : List OFPortDesc) :
    (p.setPortInformations sw ports).helloFailedSwitches = p.helloFailedSwitches := by
  unfold OFProtocol.setPortInformations
  induction ports generalizing p with
  | nil => rfl
  | cons port ports ih => exact ih (p.setPortInformation sw port)

theorem helloFailedSwitches_deliver (p : OFProtocol) (sw xid : ℕ) (m : OFMessage) :
    (p.deliver sw xid m).helloFailedSwitches = p.helloFailedSwitches := by
  unfold OFProtocol.deliver
  split
  · rfl
  · split <;> rfl

theorem helloFailedSwitches_updatePort (p : OFProtocol) (sw : ℕ) (ps : OFPortStatus) :
    (p.updatePort sw ps).helloFailedSwitches = p.helloFailedSwitches := by
  unfold OFProtocol.updatePort OFProtocol.removePortInformation
  split
  · split <;> rfl
  · split <;> rfl
  · rfl

theorem helloFailedSwitches_processStatsReply (p : OFProtocol) (sw : ℕ) (m : OFMessage) (xid : ℕ)
    (stats : OFStats) :
    (processStatsReply p sw m xid stats).helloFailedSwitches = p.helloFailedSwitches := by
  cases stats with
  | portDesc entries =>
    exact (helloFailedSwitches_deliver ..).trans (helloFailedSwitches_setPortInformations ..)
  | desc description => rfl
  | other type => exact helloFailedSwitches_deliver ..

@[simp] theorem marked_write (s : Controller σ) (c : ℕ) (r : OFRequest) :
    (s.write c r).marked = s.marked := rfl

@[simp] theorem marked_addSwitch (s : Controller σ) (id : Dpid) (sw : ℕ) :
    (s.addSwitch id sw).marked = s.marked := rfl

@[simp] theorem marked_ite_write (p : Prop) [Decidable p] (s : Controller σ) (c : ℕ) (r : OFRequest) :
    (if p then s.write c r else s).marked = s.marked := by
  split_ifs <;> rfl

theorem marked_writeAll (s : Controller σ) (c : ℕ) (rs : List OFRequest) :
    (s.writeAll c rs).marked = s.marked := by
  unfold writeAll
  induction rs generalizing s with
  | nil => rfl
  | cons r rs ih => exact ih (s.write c r)

theorem marked_call (f : Controller σ → ℕ → OFMessage → HandlerResult × σ × List OFRequest)
    (s : Controller σ) (c : ℕ) (m : OFMessage) : (s.call f c m).2.marked = s.marked := by
  unfold call
  exact marked_writeAll ..

theorem marked_setSwitchObject (s : Controller σ) (sw : ℕ) (f : OFSwitch → OFSwitch) :
    (s.setSwitchObject sw f).marked = s.marked := by
  unfold setSwitchObject
  split <;> rfl

/-- A change of the protocol that is not about the set. -/
theorem marked_setProtocol {f : OFProtocol → OFProtocol}
    (hf : (f s.protocol).helloFailedSwitches = s.protocol.helloFailedSwitches) :
    (s.setProtocol f).marked = s.marked := hf

theorem marked_processHello (s : Controller σ) (c : ℕ) (conn : Connection) (version : OFVersion) :
    (s.processHello c conn version).marked = setRemove s.marked conn.host := by
  unfold processHello
  cases conn.sw with
  | none => rfl
  | some sw =>
    refine congrArg (setRemove · conn.host) ?_
    exact marked_setSwitchObject ..

theorem marked_processFeaturesReply (s : Controller σ) (c sw : ℕ) (m : OFMessage) (version : OFVersion)
    (xid : ℕ) (datapathId : Dpid) (ports : Option (List OFPortDesc)) :
    (s.processFeaturesReply c sw m version xid datapathId ports).marked = s.marked := by
  unfold processFeaturesReply
  dsimp only
  rw [marked_setProtocol (helloFailedSwitches_deliver ..), marked_addSwitch, marked_ite_write,
    marked_write, marked_ite_write]
  cases ports with
  | none => exact marked_setSwitchObject ..
  | some ports =>
    refine (marked_setProtocol (helloFailedSwitches_setPortInformations ..)).trans ?_
    exact marked_setSwitchObject ..

/-- Only a `HELLO` changes the set. -/
theorem marked_process (h : Handlers σ) (s : Controller σ) (c : ℕ) (m : OFMessage) :
    (∃ conn version, s.conns.get c = some conn ∧ conn.isConnected = true ∧ m = .hello version ∧
      (s.process h c m).2.marked = setRemove s.marked conn.host) ∨
    (∀ conn version, s.conns.get c = some conn → conn.isConnected = true → m ≠ .hello version) ∧
      (s.process h c m).2.marked = s.marked := by
  have hp := processes_process h s c m
  generalize (s.process h c m).2 = s' at hp
  cases hp with
  | nothing hnot hm => exact .inr ⟨hm, rfl⟩
  | hello conn version hconn hopen hm =>
    exact .inl ⟨conn, version, hconn, hopen, hm, marked_processHello ..⟩
  | write r hnot hm => exact .inr ⟨fun _ version _ _ => hm version, rfl⟩
  | featuresReply sw version xid d ports hnames hm =>
    refine .inr ⟨fun _ _ _ _ => by rw [hm]; exact nofun, ?_⟩
    rw [marked_call, marked_processFeaturesReply]
  | portStatus sw ps hm =>
    refine .inr ⟨fun _ _ _ _ => by rw [hm]; exact nofun, ?_⟩
    rw [marked_call, marked_setProtocol (helloFailedSwitches_updatePort ..)]
  | statsReply sw xid stats replyMore hm =>
    refine .inr ⟨fun _ _ _ _ => by rw [hm]; exact nofun, ?_⟩
    exact marked_setProtocol (helloFailedSwitches_processStatsReply ..)
  | packetIn hnot hm => exact .inr ⟨fun _ version _ _ => hm version, marked_call ..⟩
  | other type hm => exact .inr ⟨fun _ _ _ _ => by rw [hm]; exact nofun, marked_call ..⟩

theorem marked_processDisconnects (c i : ℕ) (fs : List (Controller σ → ℕ → Bool × σ))
    (s : Controller σ) : (processDisconnects c i fs s).marked = s.marked := by
  induction fs generalizing i s with
  | nil => rfl
  | cons f fs ih =>
    unfold processDisconnects
    dsimp only
    split_ifs
    · rfl
    · exact ih ..

theorem marked_disconnected (h : Handlers σ) (s : Controller σ) (c : ℕ) :
    (s.disconnected h c).marked = s.marked := by
  have hclose : ∀ s : Controller σ, (s.close c).marked = s.marked := by
    intro s
    unfold close
    split <;> rfl
  unfold disconnected handleDisconnectEvent
  split_ifs
  · rw [hclose]
    split
    · rfl
    · exact marked_processDisconnects ..
  · rfl

end Controller

/-! ## Runs -/

namespace Negotiations

open Controller

variable {σ κ : Type} {h : Handlers σ} {n : Negotiations σ} {owner : ℕ → κ}

/-- The set has the hosts of which an odd number of connections have come since the last `HELLO`. -/
def Counted (n : Negotiations σ) : Prop := ∀ host, host ∈ n.controller.marked ↔ Odd (n.since host)

theorem Counted.connected (hn : n.Counted) (c : ℕ) : (step h n (.connected c)).Counted := by
  intro host
  show host ∈ (n.controller.connected c).marked ↔ Odd (n.count (.connected c) host)
  by_cases hc : ∃ host, n.controller.Awaits c host
  · obtain ⟨host', hc⟩ := hc
    rw [marked_connected hc]
    obtain ⟨conn, hconn, hstatus, rfl⟩ := hc
    unfold count
    simp only [hconn, hstatus, if_true]
    rw [Function.update_apply]
    by_cases hhost : host = conn.host
    · rw [if_pos hhost, Nat.odd_add_one, ← hn, hhost]
      split_ifs with hmarked <;> simp [hmarked]
    · rw [if_neg hhost, ← hn]
      split_ifs <;> simp [hhost]
  · have hcount : n.count (.connected c) = n.since := by
      unfold count
      dsimp only
      cases hconn : n.controller.conns.get c with
      | none => rfl
      | some conn => exact if_neg fun hstatus => hc ⟨conn.host, conn, hconn, hstatus, rfl⟩
    rw [connected_of_not_awaits fun host h => hc ⟨host, h⟩, hcount, hn]

theorem Counted.message (hn : n.Counted) (c : ℕ) (m : OFMessage) : (step h n (.message c m)).Counted := by
  intro host
  show host ∈ (n.controller.process h c m).2.marked ↔ Odd (n.count (.message c m) host)
  obtain ⟨conn, version, hconn, hopen, rfl, hmarked⟩ | ⟨hnot, hmarked⟩ :=
    marked_process h n.controller c m
  · rw [hmarked, mem_setRemove]
    unfold count
    simp only [hconn, hopen, if_true]
    rw [Function.update_apply]
    by_cases hhost : host = conn.host
    · rw [if_pos hhost]
      simp [hhost]
    · rw [if_neg hhost, ← hn]
      simp [hhost]
  · have hcount : n.count (.message c m) = n.since := by
      unfold count
      cases m with
      | hello version =>
        dsimp only
        cases hconn : n.controller.conns.get c with
        | none => rfl
        | some conn => exact if_neg fun hopen => hnot conn version hconn hopen rfl
      | _ => rfl
    rw [hmarked, hcount, hn]

theorem Counted.step (hn : n.Counted) (e : Event) : (step h n e).Counted := by
  cases e with
  | accept host => exact hn
  | connected c => exact hn.connected c
  | message c m => exact hn.message c m
  | disconnected c =>
    intro host
    show host ∈ (n.controller.disconnected h c).marked ↔ Odd (n.since host)
    rw [marked_disconnected, hn]

/-- **Proposals.** Whatever the modules do, whichever switch is behind each connection: in a run of
events in any order version 1.0 is proposed only to switches with which a negotiation of version 1.3
has failed, if and only if each connection that comes when an odd number of connections of its host
have come since the last `HELLO` from it is one of a switch with which a negotiation has failed. -/
theorem proposes_iff_clean (h : Handlers σ) (owner : ℕ → κ) (modules : σ) (es : List Event) :
    (∀ pre c post, es = pre ++ .connected c :: post →
      (Machine.run (step h) (start modules) pre).controller.Proposes c .of10 →
        (Machine.run (step h) (start modules) pre).Failed owner c) ↔
      Machine.Clean (step h) (Unfounded owner) (start modules) es := by
  have hcounted : ∀ pre, (Machine.run (step h) (start modules) pre).Counted := fun pre =>
    Machine.run_invariant (fun n e hn => hn.step e) (fun host => by simp [start, marked, Controller.new,
      OFProtocol.new]) pre
  have hproposes : ∀ pre c, (Machine.run (step h) (start modules) pre).controller.Proposes c .of10 ↔
      ∃ host, (Machine.run (step h) (start modules) pre).controller.Awaits c host ∧
        Odd ((Machine.run (step h) (start modules) pre).since host) := by
    intro pre c
    rw [proposes_of10_iff]
    exact exists_congr fun host => and_congr_right fun _ => hcounted pre host
  rw [Machine.clean_iff]
  constructor
  · intro hall pre e post heq hbad
    cases e with
    | connected c => exact hbad.2 (hall pre c post heq ((hproposes pre c).2 hbad.1))
    | accept host => exact hbad
    | message c m => exact hbad
    | disconnected c => exact hbad
  · intro hclean pre c post heq hproposed
    by_contra hnot
    exact hclean pre (.connected c) post heq ⟨(hproposes pre c).1 hproposed, hnot⟩

/-- Two switches of one host connect, and version 1.0 is proposed to the second though no negotiation
has failed. -/
theorem not_failed_shared_host :
    ¬∀ (σ κ : Type) (h : Handlers σ) (owner : ℕ → κ) (modules : σ) (es : List Event) (c : ℕ),
      (Machine.run (step h) (start modules) es).controller.Proposes c .of10 →
        (Machine.run (step h) (start modules) es).Failed owner c := by
  intro hall
  obtain ⟨c', howner, hfailed⟩ := hall Unit ℕ .idle id () [.accept "a", .connected 1, .accept "a"] 2 (by
    unfold Proposes
    decide)
  obtain rfl : c' = 2 := howner
  exact absurd hfailed (by decide)

end Negotiations

end Torpedo
