import Torpedo.Controller.Sessions

/-!
# The state of the modules

What the events of the controller do to the state of its modules: a message makes one call of a handler
at most, and nothing else changes it.
-/

namespace Torpedo

namespace Controller

variable {σ : Type} {s : Controller σ} {c : ℕ}

@[simp] theorem modules_write (s : Controller σ) (c : ℕ) (m : OFRequest) :
    (s.write c m).modules = s.modules := rfl

@[simp] theorem modules_setProtocol (s : Controller σ) (f : OFProtocol → OFProtocol) :
    (s.setProtocol f).modules = s.modules := rfl

@[simp] theorem modules_addSwitch (s : Controller σ) (id : Dpid) (sw : ℕ) :
    (s.addSwitch id sw).modules = s.modules := rfl

@[simp] theorem modules_ite_write (p : Prop) [Decidable p] (s : Controller σ) (c : ℕ) (m : OFRequest) :
    (if p then s.write c m else s).modules = s.modules := by
  split_ifs <;> rfl

theorem modules_writeAll (s : Controller σ) (c : ℕ) (ms : List OFRequest) :
    (s.writeAll c ms).modules = s.modules := by
  unfold writeAll
  induction ms generalizing s with
  | nil => rfl
  | cons m ms ih => exact ih (s.write c m)

theorem modules_call (f : Controller σ → ℕ → OFMessage → HandlerResult × σ × List OFRequest)
    (s : Controller σ) (c : ℕ) (m : OFMessage) : (s.call f c m).2.modules = (f s c m).2.1 := by
  unfold call
  exact modules_writeAll ..

theorem modules_setSwitchObject (s : Controller σ) (sw : ℕ) (f : OFSwitch → OFSwitch) :
    (s.setSwitchObject sw f).modules = s.modules := by
  unfold setSwitchObject
  split <;> rfl

theorem modules_processHello (s : Controller σ) (c : ℕ) (conn : Connection) (version : OFVersion) :
    (s.processHello c conn version).modules = s.modules := by
  unfold processHello
  cases conn.sw with
  | none => rfl
  | some sw => exact modules_setSwitchObject ..

theorem modules_processFeaturesReply (s : Controller σ) (c sw : ℕ) (m : OFMessage)
    (version : OFVersion) (xid : ℕ) (datapathId : Dpid) (ports : Option (List OFPortDesc)) :
    (s.processFeaturesReply c sw m version xid datapathId ports).modules = s.modules := by
  unfold processFeaturesReply
  cases ports <;> simp only [modules_setProtocol, modules_addSwitch, modules_ite_write, modules_write,
    modules_setSwitchObject]

theorem modules_connected (s : Controller σ) (c : ℕ) : (s.connected c).modules = s.modules := by
  unfold connected proposeVersion
  split
  · rfl
  · dsimp only
    split_ifs <;> rfl

theorem modules_close (s : Controller σ) (c : ℕ) : (s.close c).modules = s.modules := by
  unfold close
  split <;> rfl

/-- A switch object belongs to the connection that it was made for. -/
theorem Names.eq (hv : s.Valid) {m : OFMessage} {sw : ℕ} {d : Dpid} (hnames : s.Names c m sw d) :
    sw = c := by
  obtain ⟨conn, _, _, _, hconn, -, hsw, -⟩ := hnames
  have hl := hv.linked c
  rw [hconn] at hl
  generalize s.switchObjects.get c = o at hl
  cases hl with
  | early host => cases hsw
  | closed host o ho => cases hsw
  | running host version id => exact (Option.some.inj hsw).symm

/-- What the other messages do to the modules: nothing, or what one call does. -/
theorem modules_process (h : Handlers σ) {m : OFMessage} (hnot : ∀ sw d, ¬s.Names c m sw d) :
    (s.process h c m).2.modules = s.modules ∨
    (s.process h c m).2.modules = (h.handlePacketIn s c m).2.1 ∨
    ∃ s' : Controller σ, s'.modules = s.modules ∧
      (∀ version xid d ports, m ≠ .featuresReply version xid d ports) ∧
      (s.process h c m).2.modules = (h.handleGeneric s' c m).2.1 := by
  have hp := processes_process h s c m
  generalize (s.process h c m).2 = s' at hp ⊢
  cases hp with
  | nothing hnot hm => exact .inl rfl
  | hello conn version hconn hopen hm => exact .inl (modules_processHello ..)
  | write r hnot hm => exact .inl rfl
  | featuresReply sw version xid d ports hnames hm => exact absurd hnames (hnot sw d)
  | portStatus sw ps hm =>
    exact .inr (.inr ⟨_, modules_setProtocol s fun p => p.updatePort sw ps, by rw [hm]; exact nofun,
      modules_call ..⟩)
  | statsReply sw xid stats replyMore hm => exact .inl rfl
  | packetIn hnot hm => exact .inr (.inl (modules_call ..))
  | other type hm => exact .inr (.inr ⟨s, rfl, by rw [hm]; exact nofun, modules_call ..⟩)

/-- The switch object and the id that a features reply leaves. -/
theorem named_processFeaturesReply (hv : s.Valid) {m : OFMessage} {d : Dpid} (hnames : s.Names c m c d)
    (m' : OFMessage) (version : OFVersion) (xid : ℕ) (ports : Option (List OFPortDesc)) :
    (s.processFeaturesReply c c m' version xid d ports).getSwitch c = some c ∧
      (s.processFeaturesReply c c m' version xid d ports).getId c = some d := by
  have hcore := core_processFeaturesReply s c c m' version xid d ports
  have hconns := (congrArg Core.conns hcore).trans (conns_setSwitchObject s c _)
  have hobjects : (s.processFeaturesReply c c m' version xid d ports).switchObjects =
      (s.setSwitchObject c fun o => { o with id := some d }).switchObjects :=
    congrArg Core.switchObjects hcore
  obtain ⟨conn, _, _, _, hconn, -, hsw, -⟩ := hnames
  have hswitch : (s.processFeaturesReply c c m' version xid d ports).getSwitch c = some c := by
    rw [getSwitch_of_get ((congrArg (HashMap.get · c) hconns).trans hconn), hsw]
  refine ⟨hswitch, ?_⟩
  unfold getId
  rw [hswitch, hobjects]
  show ((s.setSwitchObject c fun o => { o with id := some d }).switchObjects.get c).bind _ = _
  rw [get_setSwitchObject, if_pos rfl]
  have hl := hv.linked c
  rw [hconn] at hl
  generalize s.switchObjects.get c = o at hl
  cases hl with
  | early host => cases hsw
  | closed host o ho => cases hsw
  | running host version id => rfl

end Controller

end Torpedo
