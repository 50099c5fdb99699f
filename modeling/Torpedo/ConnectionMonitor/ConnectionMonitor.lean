import Torpedo.Controller.Disconnects
import Torpedo.Util.Iterators

/-!
# The connection monitor

`OFMConnectionMonitor` removes the switches that it has not heard from for long, while it walks over the keys of
the map that it takes them out of. It does so, and returns, if and only if no switch has expired but the last one
that the iterator comes to, and the connection of that one has not been closed before.
-/

namespace Torpedo

/-- `OFMConnectionMonitor`, with the controller that has the connections. -/
structure ConnectionMonitor (σ : Type) where
  controller : Controller σ
  echoRequestInterval : ℤ
  /-- When each switch was last heard from. -/
  switchMap : HashMap ℕ ℤ

namespace ConnectionMonitor

variable {σ : Type}

def expireThreshold : ℤ := 10

/-- `getConnection` of a switch. -/
def getConnection (s : ConnectionMonitor σ) (sw : ℕ) : Option ℕ :=
  (s.controller.switchObjects.get sw).bind OFSwitch.conn

/-- Close the connection and detach it from its switch. -/
def detach (sw c : ℕ) (s : ConnectionMonitor σ) : ConnectionMonitor σ :=
  { s with controller := (s.controller.close c).setSwitchObject sw fun o => { o with conn := none } }

/-- Cut the connection to an expired switch. The client of a connection that is closed is null. -/
def cutConnection (sw : ℕ) : Method (ConnectionMonitor σ) Unit := do
  let s ← Method.get
  match s.getConnection sw with
  | none => return ()
  | some c => if s.controller.isConnected c then Method.modify (detach sw c) else Method.throw

/-- The body of the loop of `removeExpiredSwitches`. -/
def removeIfExpired (now : ℤ) (sw : ℕ) : Method (ConnectionMonitor σ) Unit := do
  let s ← Method.get
  let lastSeen ← Method.nonNull (s.switchMap.get sw)
  if now - lastSeen > s.echoRequestInterval * expireThreshold then do
    cutConnection sw
    Method.modify fun s => { s with switchMap := s.switchMap.remove sw }
  else return ()

def removeExpiredSwitches (order : HashOrder) (now : ℤ) : Method (ConnectionMonitor σ) Unit := do
  let s ← Method.get
  let switches := s.switchMap.keySet
  Method.forEachIn (fun s => s.switchMap.keySet) switches (removeIfExpired now) (order.iter switches)

/-! ## One switch -/

variable {order : HashOrder} {now : ℤ} {s : ConnectionMonitor σ} {sw : ℕ}

/-- The switch has not been heard from for more than the threshold. -/
def Expired (now : ℤ) (s : ConnectionMonitor σ) (sw : ℕ) : Prop :=
  ∃ lastSeen, s.switchMap.get sw = some lastSeen ∧ now - lastSeen > s.echoRequestInterval * expireThreshold

/-- The connection of a switch can be closed, if it has one. -/
def Closable (s : ConnectionMonitor σ) (sw : ℕ) : Prop :=
  ∀ c, s.getConnection sw = some c → s.controller.isConnected c = true

/-- A switch is cut off and taken out of the map. -/
def removed (s : ConnectionMonitor σ) (sw : ℕ) : ConnectionMonitor σ :=
  { (s.getConnection sw).elim s (fun c => detach sw c s) with switchMap := s.switchMap.remove sw }

theorem cutConnection_of_closable (h : s.Closable sw) :
    cutConnection sw s = (.ok (), (s.getConnection sw).elim s fun c => detach sw c s) := by
  unfold cutConnection
  rw [Method.get_bind_apply]
  cases hconn : s.getConnection sw with
  | none => rfl
  | some c => simp [h c hconn]

theorem cutConnection_of_not_closable (h : ¬s.Closable sw) : (cutConnection sw s).1 ≠ .ok () := by
  unfold cutConnection
  rw [Method.get_bind_apply]
  cases hconn : s.getConnection sw with
  | none =>
    refine absurd (fun c hc => ?_) h
    rw [hconn] at hc
    cases hc
  | some c =>
    have hclosed : ¬s.controller.isConnected c = true := fun hopen =>
      h fun c' hc' => Option.some.inj (hconn.symm.trans hc') ▸ hopen
    simp [hclosed]

theorem removeIfExpired_of_not (hsw : sw ∈ s.switchMap.keySet) (h : ¬s.Expired now sw) :
    removeIfExpired now sw s = (.ok (), s) := by
  obtain ⟨lastSeen, hget⟩ := (HashMap.mem_keySet_iff _).1 hsw
  unfold removeIfExpired
  rw [Method.get_bind_apply, hget, Method.nonNull_some, Method.pure_bind,
    if_neg fun hlate => h ⟨lastSeen, hget, hlate⟩]
  rfl

theorem removeIfExpired_of_closable (h : s.Expired now sw) (hclosable : s.Closable sw) :
    removeIfExpired now sw s = (.ok (), s.removed sw) := by
  obtain ⟨lastSeen, hget, hlate⟩ := h
  unfold removeIfExpired
  rw [Method.get_bind_apply, hget, Method.nonNull_some, Method.pure_bind, if_pos hlate,
    Method.bind_ok (cutConnection_of_closable hclosable), Method.modify_apply]
  unfold removed
  cases s.getConnection sw <;> rfl

theorem removeIfExpired_of_not_closable (h : s.Expired now sw) (hclosable : ¬s.Closable sw) :
    (removeIfExpired now sw s).1 ≠ .ok () := by
  obtain ⟨lastSeen, hget, hlate⟩ := h
  have hcut := cutConnection_of_not_closable hclosable
  unfold removeIfExpired
  rw [Method.get_bind_apply, hget, Method.nonNull_some, Method.pure_bind, if_pos hlate]
  cases hm : cutConnection sw s with
  | mk r s' =>
    cases r with
    | ok u => exact absurd (congrArg Prod.fst hm) hcut
    | error e => simp [Method.bind_error hm]

/-- The map is changed if an expired switch is removed. -/
theorem keySet_removed_ne (hsw : sw ∈ s.switchMap.keySet) : (s.removed sw).switchMap.keySet ≠ s.switchMap.keySet := by
  intro heq
  rw [← heq, HashMap.mem_keySet] at hsw
  exact absurd (show ((s.switchMap.remove sw).get sw).isSome from hsw) (by simp)

theorem removeIfExpired_changes (hsw : sw ∈ s.switchMap.keySet) : removeIfExpired now sw s = (.ok (), s) ∨
    ∀ s', removeIfExpired now sw s = (.ok (), s') → s'.switchMap.keySet ≠ s.switchMap.keySet := by
  by_cases hexpired : s.Expired now sw
  · refine .inr fun s' hs' => ?_
    by_cases hclosable : s.Closable sw
    · rw [removeIfExpired_of_closable hexpired hclosable] at hs'
      obtain rfl := (Prod.mk.inj hs').2
      exact keySet_removed_ne hsw
    · exact absurd (congrArg Prod.fst hs') (removeIfExpired_of_not_closable hexpired hclosable)
  · exact .inl (removeIfExpired_of_not hsw hexpired)

/-! ## All switches -/

/-- The switches that have expired are closed and removed, and the others are as they were. -/
structure Removes (now : ℤ) (s : ConnectionMonitor σ) (r : Except Stop Unit × ConnectionMonitor σ) : Prop where
  returns : r.1 = .ok ()
  removed : ∀ sw, s.Expired now sw → r.2.switchMap.get sw = none ∧ r.2.getConnection sw = none ∧
    ∀ c, s.getConnection sw = some c → r.2.controller.isConnected c = false
  kept : ∀ sw, ¬s.Expired now sw → r.2.switchMap.get sw = s.switchMap.get sw ∧
    r.2.controller.switchObjects.get sw = s.controller.switchObjects.get sw
  others : ∀ c, (∀ sw, s.Expired now sw → s.getConnection sw ≠ some c) →
    r.2.controller.conns.get c = s.controller.conns.get c

theorem removes_of_not (h : ∀ sw, ¬s.Expired now sw) : Removes now s (.ok (), s) where
  returns := rfl
  removed sw hsw := absurd hsw (h sw)
  kept _ _ := ⟨rfl, rfl⟩
  others _ _ := rfl

theorem isConnected_close (s : Controller σ) (c : ℕ) : (s.close c).isConnected c = false := by
  unfold Controller.close
  cases hconn : s.conns.get c with
  | none => simp [Controller.isConnected, hconn]
  | some conn => simp [Controller.isConnected, Connection.close]

theorem get_conns_close (s : Controller σ) {c c' : ℕ} (h : c' ≠ c) : (s.close c).conns.get c' = s.conns.get c' := by
  unfold Controller.close
  cases s.conns.get c with
  | none => rfl
  | some conn => exact (HashMap.get_put ..).trans (if_neg h)

theorem switchObjects_close (s : Controller σ) (c : ℕ) : (s.close c).switchObjects = s.switchObjects := by
  unfold Controller.close
  cases s.conns.get c <;> rfl

/-- Nothing changes but the switch, and its connection if it has one. -/
theorem get_switchObjects_removed (s : ConnectionMonitor σ) (sw sw' : ℕ) :
    (s.removed sw).controller.switchObjects.get sw' =
      if sw' = sw then (s.controller.switchObjects.get sw).map fun o => { o with conn := none }
      else s.controller.switchObjects.get sw' := by
  unfold removed
  cases hconn : s.getConnection sw with
  | none =>
    unfold getConnection at hconn
    split_ifs with hsw
    · subst hsw
      show s.controller.switchObjects.get sw' = _
      cases ho : s.controller.switchObjects.get sw' with
      | none => rfl
      | some o =>
        rw [ho] at hconn
        obtain ⟨version, id, conn⟩ := o
        obtain rfl : conn = none := hconn
        rfl
    · rfl
  | some c => exact (Controller.get_setSwitchObject ..).trans (by rw [switchObjects_close])

theorem get_conns_removed {c : ℕ} (h : s.getConnection sw ≠ some c) :
    (s.removed sw).controller.conns.get c = s.controller.conns.get c := by
  unfold removed
  cases hconn : s.getConnection sw with
  | none => rfl
  | some c' =>
    rw [hconn] at h
    show ((s.controller.close c').setSwitchObject sw _).conns.get c = _
    rw [Controller.conns_setSwitchObject, get_conns_close s.controller fun heq => h (congrArg some heq.symm)]

theorem isConnected_removed {c : ℕ} (h : s.getConnection sw = some c) :
    (s.removed sw).controller.isConnected c = false := by
  unfold removed
  rw [h]
  show (((s.controller.close c).setSwitchObject sw _).conns.get c |>.map Connection.isConnected).getD false = false
  rw [Controller.conns_setSwitchObject]
  exact isConnected_close s.controller c

theorem removes_removed (h : s.Expired now sw) (hone : ∀ sw', s.Expired now sw' → sw' = sw) :
    Removes now s (.ok (), s.removed sw) where
  returns := rfl
  removed sw' hsw' := by
    obtain rfl := hone sw' hsw'
    refine ⟨HashMap.get_remove_self _ sw', ?_, fun c hc => isConnected_removed hc⟩
    unfold getConnection
    rw [get_switchObjects_removed, if_pos rfl]
    cases s.controller.switchObjects.get sw' <;> rfl
  kept sw' hsw' := by
    have hne : sw' ≠ sw := fun heq => hsw' (heq ▸ h)
    refine ⟨?_, (get_switchObjects_removed s sw sw').trans (if_neg hne)⟩
    show (s.switchMap.remove sw).get sw' = _
    rw [HashMap.get_remove, if_neg hne]
  others c hc := get_conns_removed (hc sw h)

/-- **Expired switches.** The switches that have expired are closed and removed, no other is touched, and the
method returns, if and only if no switch has expired but the last one that the iterator comes to, and the
connection of a switch that has expired is not closed already. -/
theorem removes_iff (order : HashOrder) (now : ℤ) (s : ConnectionMonitor σ) :
    Removes now s (removeExpiredSwitches order now s) ↔
      (∀ sw ∈ (order.iter s.switchMap.keySet).dropLast, ¬s.Expired now sw) ∧
        ∀ sw, s.Expired now sw → s.Closable sw := by
  have hmem : ∀ sw, s.Expired now sw → sw ∈ (order.iter s.switchMap.keySet).dropLast ∨
      (order.iter s.switchMap.keySet).getLast? = some sw := by
    rintro sw ⟨lastSeen, hget, -⟩
    exact mem_dropLast_or (order.mem_iter.2 ((HashMap.mem_keySet_iff _).2 ⟨lastSeen, hget⟩))
  have hloop : (∀ sw ∈ (order.iter s.switchMap.keySet).dropLast, ¬s.Expired now sw) →
      removeExpiredSwitches order now s =
        ((order.iter s.switchMap.keySet).getLast?.elim (pure ()) (removeIfExpired now)) s := fun hlast =>
    Method.forEachIn_of_idle fun sw hsw =>
      removeIfExpired_of_not (order.mem_iter.1 (List.dropLast_subset _ hsw)) (hlast sw hsw)
  constructor
  · intro h
    have hlast : ∀ sw ∈ (order.iter s.switchMap.keySet).dropLast, ¬s.Expired now sw := by
      intro sw hsw hexpired
      have hkey := order.mem_iter.1 (List.dropLast_subset _ hsw)
      have hidle := Method.idle_of_forEachIn (fun sw hsw => removeIfExpired_changes (order.mem_iter.1 hsw))
        h.returns sw hsw
      by_cases hclosable : s.Closable sw
      · rw [removeIfExpired_of_closable hexpired hclosable] at hidle
        exact keySet_removed_ne hkey (congrArg (fun s => s.switchMap.keySet) (Prod.mk.inj hidle).2)
      · exact removeIfExpired_of_not_closable hexpired hclosable (congrArg Prod.fst hidle)
    refine ⟨hlast, fun sw hexpired => ?_⟩
    have hsw := (hmem sw hexpired).resolve_left fun hsw => hlast sw hsw hexpired
    have hreturns := h.returns
    rw [hloop hlast, hsw] at hreturns
    by_contra hclosable
    exact removeIfExpired_of_not_closable hexpired hclosable hreturns
  · rintro ⟨hlast, hclosable⟩
    rw [hloop hlast]
    cases hsw : (order.iter s.switchMap.keySet).getLast? with
    | none =>
      refine removes_of_not fun sw hexpired => ?_
      obtain hsw' | hsw' := hmem sw hexpired
      · exact hlast sw hsw' hexpired
      · exact absurd (hsw.symm.trans hsw') nofun
    | some sw =>
      have hkey := order.mem_iter.1 (List.mem_of_getLast? hsw)
      have hone : ∀ sw', s.Expired now sw' → sw' = sw := fun sw' hexpired =>
        Option.some.inj (((hmem sw' hexpired).resolve_left fun hsw' => hlast sw' hsw' hexpired).symm.trans hsw)
      by_cases hexpired : s.Expired now sw
      · rw [Option.elim_some, removeIfExpired_of_closable hexpired (hclosable sw hexpired)]
        exact removes_removed hexpired hone
      · rw [Option.elim_some, removeIfExpired_of_not hkey hexpired]
        exact removes_of_not fun sw' hexpired' => hexpired (hone sw' hexpired' ▸ hexpired')

/-- A monitor that has heard of two switches at the time 0, with an interval of one second. -/
def twoSwitches : ConnectionMonitor Unit where
  controller := { Controller.new () with
    conns := ((∅ : HashMap ℕ Connection).put 1 ⟨"a", .running, some 1, true⟩).put 2 ⟨"b", .running, some 2, true⟩
    switchObjects := ((∅ : HashMap ℕ OFSwitch).put 1 ⟨.of13, some 1, some 1⟩).put 2 ⟨.of13, some 2, some 2⟩ }
  echoRequestInterval := 1000
  switchMap := ((∅ : HashMap ℕ ℤ).put 1 0).put 2 0

/-- After 20 seconds both have expired, and the iterator throws when one of them has been removed. -/
theorem not_removes_twoSwitches :
    ¬∀ (σ : Type) (order : HashOrder) (now : ℤ) (s : ConnectionMonitor σ),
      Removes now s (removeExpiredSwitches order now s) := by
  intro hall
  have hreturns := (hall Unit .insertion 20000 twoSwitches).returns
  exact absurd hreturns (by decide)

end ConnectionMonitor

end Torpedo
