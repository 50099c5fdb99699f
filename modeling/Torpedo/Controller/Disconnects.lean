import Mathlib.Data.List.Count
import Torpedo.Controller.Sessions

/-!
# Disconnections and the modules

The watchers of the connections and `OFMConnectionMonitor`, and which modules hear that a connection
has ended. They all do, once each and while the switch is still attached, in every run in which no
connection is closed by the monitor, no module but the last throws, and no connection has an entry in
the switches map under an id that it has no longer.
-/

namespace Torpedo

/-- The controller, and the watcher threads that an exception has ended. -/
structure Watched (σ : Type) where
  controller : Controller σ
  dead : List ℕ

/-- What the watchers and the monitor do, besides the events of the controller. -/
inductive WatchEvent
  | event (e : Controller.Event)
  /-- `removeExpiredSwitches`, for one switch. -/
  | expire (sw : ℕ)
  /-- The watcher gets to the key of a connection that the monitor has closed since the selection. -/
  | stale (c : ℕ)
deriving DecidableEq

namespace Controller

variable {σ : Type}

/-- The monitor closes the connection of a switch that it has not heard of for long. Closing it a
second time throws. -/
def expire (s : Controller σ) (sw : ℕ) : Controller σ :=
  match s.switchObjects.get sw with
  | some ⟨_, _, some c⟩ =>
    if s.isConnected c then (s.close c).setSwitchObject sw fun o => { o with conn := none } else s
  | _ => s

end Controller

namespace Watched

variable {σ : Type}

def start (modules : σ) : Watched σ := ⟨.new modules, []⟩

/-- The next step; `watcher` tells which thread watches a connection. A thread that has ended sees
nothing of its connections. -/
def step (h : Handlers σ) (watcher : ℕ → ℕ) (w : Watched σ) : WatchEvent → Watched σ
  | .event (.connected c) =>
    if watcher c ∈ w.dead then w else { w with controller := w.controller.connected c }
  | .event (.disconnected c) =>
    if watcher c ∈ w.dead then w else { w with controller := w.controller.disconnected h c }
  | .event e => { w with controller := w.controller.handle h e }
  | .expire sw => { w with controller := w.controller.expire sw }
  | .stale c =>
    -- the client is null, and the call of `getRemoteAddress` ends the thread
    if w.controller.isConnected c = false ∧
        (w.controller.switchObjects.get c).map OFSwitch.conn = some none then
      { w with dead := watcher c :: w.dead }
    else w

end Watched

namespace Controller

variable {σ : Type} {s : Controller σ} {c : ℕ}

/-- Each of `k` modules has been told once that the connection has ended, with its switch attached, and
the switches map does not have the switch. -/
def View.Delivered (k : ℕ) (v : View) (c : ℕ) : Prop :=
  (∀ i < k, v.disconnects.filter (fun x => x.1 = i ∧ x.2.1 = c) = [(i, c, some c)]) ∧
    ∀ d, v.entry d ≠ some c

/-- Each connection that completed the handshake and has ended is delivered. -/
def View.Concluded (k : ℕ) (v : View) : Prop :=
  ∀ c, v.id c ≠ none → v.isConnected c = false → v.Delivered k c

/-- The modules were told of connections that have ended only. -/
def View.Logged (v : View) : Prop :=
  ∀ x ∈ v.disconnects, v.id x.2.1 ≠ none ∧ v.isConnected x.2.1 = false

/-- Each connection that completed the handshake and has ended is concluded for all modules. -/
def Concluded (h : Handlers σ) (s : Controller σ) : Prop :=
  s.view.Concluded h.processDisconnect.length

/-- A module that is not the last one throws when it is told that `c` has ended. -/
def Interrupted (c : ℕ) : ℕ → List (Controller σ → ℕ → Bool × σ) → Controller σ → Prop
  | i, f :: g :: fs, s => (f s c).1 = true ∨ Interrupted c (i + 1) (g :: fs)
    { s with modules := (f s c).2, disconnects := s.disconnects ++ [(i, c, s.getSwitch c)] }
  | _, _, _ => False

/-! ## The calls of the modules -/

/-- The calls of `k` modules for a connection, from module `i`. -/
def calls (c : ℕ) (sw : Option ℕ) (i k : ℕ) : List (ℕ × ℕ × Option ℕ) :=
  (List.range' i k).map fun j => (j, c, sw)

/-- The modules are called in their order, all of them unless one is interrupted. -/
theorem disconnects_processDisconnects (c i : ℕ) (fs : List (Controller σ → ℕ → Bool × σ))
    (s : Controller σ) :
    ∃ k ≤ fs.length, (k = fs.length ↔ ¬Interrupted c i fs s) ∧
      (processDisconnects c i fs s).disconnects = s.disconnects ++ calls c (s.getSwitch c) i k := by
  induction fs generalizing i s with
  | nil => exact ⟨0, le_rfl, by simp [Interrupted], by simp [processDisconnects, calls]⟩
  | cons f fs ih =>
    unfold processDisconnects
    dsimp only
    set s₁ : Controller σ :=
      { s with modules := (f s c).2, disconnects := s.disconnects ++ [(i, c, s.getSwitch c)] } with hs₁
    by_cases hthrows : (f s c).1 = true
    · rw [if_pos hthrows]
      refine ⟨1, by simp, ?_, rfl⟩
      cases fs with
      | nil => simp [Interrupted]
      | cons g fs => simp [Interrupted, hthrows]
    · rw [if_neg hthrows]
      obtain ⟨k, hk, hiff, heq⟩ := ih (i + 1) s₁
      refine ⟨k + 1, by simpa using hk, ?_, ?_⟩
      · cases fs with
        | nil =>
          have hk : k = 0 := by simpa using hk
          simp [Interrupted, hk]
        | cons g fs =>
          have hiff : k = (g :: fs).length ↔ ¬Interrupted c (i + 1) (g :: fs) s₁ := hiff
          rw [List.length_cons, Nat.add_right_cancel_iff, hiff]
          show _ ↔ ¬((f s c).1 = true ∨ Interrupted c (i + 1) (g :: fs) s₁)
          simp [hthrows]
      · rw [heq]
        show (s.disconnects ++ [(i, c, s.getSwitch c)]) ++ calls c (s.getSwitch c) (i + 1) k = _
        unfold calls
        rw [List.append_assoc, List.range'_succ, List.map_cons]
        rfl

namespace View

variable {k : ℕ} {v : View}

/-- A new connection. -/
theorem Logged.open (hl : v.Logged) (hid : v.id c = none) :
    Logged { v with isConnected := Function.update v.isConnected c true } := by
  intro x hx
  refine ⟨(hl x hx).1, ?_⟩
  have hne : x.2.1 ≠ c := by
    intro heq
    exact (hl x hx).1 (heq ▸ hid)
  show Function.update v.isConnected c true x.2.1 = false
  rw [Function.update_of_ne hne]
  exact (hl x hx).2

theorem Concluded.open (hv : v.Concluded k) :
    Concluded k { v with isConnected := Function.update v.isConnected c true } := by
  intro x hid hx
  have hx : Function.update v.isConnected c true x = false := hx
  rw [Function.update_apply] at hx
  split_ifs at hx
  exact hv x hid hx

/-- An open connection gets an id. -/
theorem Logged.name (hl : v.Logged) (hopen : v.isConnected c = true) (d : Dpid) :
    Logged { v with
      id := Function.update v.id c (some d)
      entry := Function.update v.entry d (some c) } := by
  intro x hx
  refine ⟨?_, (hl x hx).2⟩
  have hne : x.2.1 ≠ c := by
    intro heq
    rw [← heq, (hl x hx).2] at hopen
    cases hopen
  show Function.update v.id c (some d) x.2.1 ≠ none
  rw [Function.update_of_ne hne]
  exact (hl x hx).1

theorem Concluded.name (hv : v.Concluded k) (hopen : v.isConnected c = true) (d : Dpid) :
    Concluded k { v with
      id := Function.update v.id c (some d)
      entry := Function.update v.entry d (some c) } := by
  intro x hid hx
  have hx : v.isConnected x = false := hx
  have hne : x ≠ c := by
    rintro rfl
    exact nomatch hopen.symm.trans hx
  have hid : Function.update v.id c (some d) x ≠ none := hid
  rw [Function.update_of_ne hne] at hid
  refine ⟨(hv x hid hx).1, fun d' => ?_⟩
  show Function.update v.entry d (some c) d' ≠ some x
  rw [Function.update_apply]
  split_ifs
  · exact fun h => hne (Option.some.inj h).symm
  · exact (hv x hid hx).2 d'

/-- A connection is closed, and no module is told. -/
theorem Logged.close (hl : v.Logged) :
    Logged { v with isConnected := Function.update v.isConnected c false } := by
  intro x hx
  refine ⟨(hl x hx).1, ?_⟩
  show Function.update v.isConnected c false x.2.1 = false
  rw [Function.update_apply]
  split_ifs
  · rfl
  · exact (hl x hx).2

/-- A connection is closed, and `n` modules are told. -/
def disconnect (v : View) (c : ℕ) (d : Dpid) (n : ℕ) : View where
  isConnected := Function.update v.isConnected c false
  id := v.id
  entry := Function.update v.entry d none
  disconnects := v.disconnects ++ calls c (some c) 0 n

variable {d : Dpid} {n : ℕ}

theorem Logged.disconnect (hl : v.Logged) (hid : v.id c = some d) :
    (v.disconnect c d n).Logged := by
  have hclosed : ∀ x, v.isConnected x = false → Function.update v.isConnected c false x = false := by
    intro x hx
    rw [Function.update_apply]
    split_ifs
    · rfl
    · exact hx
  intro x hx
  obtain hx | hx := List.mem_append.1 hx
  · exact ⟨(hl x hx).1, hclosed _ (hl x hx).2⟩
  · obtain ⟨i, -, rfl⟩ := List.mem_map.1 hx
    refine ⟨?_, Function.update_self ..⟩
    show v.id c ≠ none
    rw [hid]
    exact nofun

end View

/-! ## What a step does to the ends -/

/-- What the monitor does: nothing, or it closes the connection. -/
theorem view_expire (hv : s.Valid) (c : ℕ) :
    (s.expire c).Valid ∧
    ((s.expire c).view = s.view ∧ s.getId c = none ∨ s.isConnected c = true ∧
      (s.expire c).view = { s.view with isConnected := Function.update s.isConnected c false }) := by
  have hl := hv.linked c
  have hid := hv.getId_eq c
  unfold idOf at hid
  unfold expire
  generalize hconn : s.conns.get c = conn at hl
  generalize ho : s.switchObjects.get c = o at hl
  cases hl with
  | absent => exact ⟨hv, .inl ⟨rfl, by rw [hid, ho]; split_ifs <;> rfl⟩⟩
  | early host => exact ⟨hv, .inl ⟨rfl, by rw [hid, ho]; split_ifs <;> rfl⟩⟩
  | closed host o ho' =>
    have hclosed : s.isConnected c = false := isConnected_of_get hconn
    rw [hclosed, if_neg Bool.false_ne_true] at hid
    match o with
    | none => exact ⟨hv, .inl ⟨rfl, hid⟩⟩
    | some ⟨version, id, none⟩ => exact ⟨hv, .inl ⟨rfl, hid⟩⟩
    | some ⟨version, id, some c'⟩ =>
      obtain hc | hc := ho' _ rfl
      · cases hc
        dsimp only
        rw [hclosed, if_neg Bool.false_ne_true]
        exact ⟨hv, .inl ⟨rfl, hid⟩⟩
      · cases hc
  | running host version id =>
    have hopen : s.isConnected c = true := isConnected_of_get hconn
    dsimp only
    rw [if_pos hopen]
    obtain ⟨hclose, hview⟩ := view_close hv hopen
    have hconn' : (s.close c).conns.get c = some ⟨host, .closed, none, false⟩ := by
      unfold close
      rw [hconn]
      exact HashMap.get_put_self ..
    have ho' : (s.close c).switchObjects.get c = some ⟨version, id, some c⟩ := by
      unfold close
      rw [hconn]
      exact ho
    refine ⟨hclose.setSwitchObject hconn' ?_, .inr ⟨hopen, ?_⟩⟩
    · rw [ho']
      refine .closed host _ fun o' ho' => .inr ?_
      cases ho'
      rfl
    · rw [view_setSwitchObject, ho', hview]
      refine View.ext rfl ?_ rfl rfl
      show Function.update (s.close c).idOf c id = s.idOf
      have hids : (s.close c).idOf = s.idOf := congrArg View.id hview
      have hid : id = s.idOf c := by
        unfold idOf
        rw [ho]
        rfl
      rw [hids, hid, Function.update_eq_self]

/-- The disconnection of a connection with an id. -/
theorem view_disconnected_of_id (hv : s.Valid) (h : Handlers σ) {d : Dpid} (hd : s.getId c = some d) :
    ∃ n ≤ h.processDisconnect.length,
      (n = h.processDisconnect.length ↔ ¬Interrupted c 0 h.processDisconnect s) ∧
      (s.disconnected h c).view = s.view.disconnect c d n := by
  have hopen := hv.isConnected hd
  have hid := hv.getId_eq c
  rw [if_pos hopen, hd] at hid
  obtain ⟨n, hn, hiff, hcalls⟩ := disconnects_processDisconnects c 0 h.processDisconnect s
  refine ⟨n, hn, hiff, ?_⟩
  have hview := (view_disconnected hv h hopen).2
  rw [← hid] at hview
  have hsw : s.getSwitch c = some c := by
    have hl := hv.linked c
    unfold getId at hd
    cases hconn : s.conns.get c with
    | none =>
      unfold getSwitch at hd
      rw [hconn] at hd
      cases hd
    | some conn =>
      rw [getSwitch_of_get hconn] at hd ⊢
      rw [hconn] at hl
      generalize s.switchObjects.get c = o at hl
      cases hl with
      | early host => cases hd
      | closed host o ho' => cases hd
      | running host version id => rfl
  rw [hsw] at hcalls
  exact hview.trans (View.ext rfl rfl rfl hcalls)

/-- A connection without an id is just closed. -/
theorem view_disconnected_of_none (hv : s.Valid) (h : Handlers σ) (hd : s.getId c = none) :
    (s.disconnected h c).view = s.view ∨ s.isConnected c = true ∧ s.idOf c = none ∧
      (s.disconnected h c).view =
        { s.view with isConnected := Function.update s.isConnected c false } := by
  cases hopen : s.isConnected c with
  | false =>
    refine .inl ?_
    unfold disconnected
    rw [hopen]
    rfl
  | true =>
    have hid := hv.getId_eq c
    rw [if_pos hopen, hd] at hid
    have hview := (view_disconnected hv h hopen).2
    rw [← hid] at hview
    exact .inr ⟨rfl, hid.symm, hview⟩

/-- A connection with an id ends, and a module that is not the last one throws, or the switches map has
the connection under another id. -/
def Drops (h : Handlers σ) (s : Controller σ) (c : ℕ) : Prop :=
  ∃ d, s.getId c = some d ∧
    (Interrupted c 0 h.processDisconnect s ∨ ∃ d' ≠ d, s.switches.get d' = some c)

theorem logged_handle (hv : s.Valid) (hl : s.view.Logged) (h : Handlers σ) (e : Event) :
    (s.handle h e).view.Logged := by
  cases e with
  | accept host =>
    show (s.accept host).view.Logged
    obtain ⟨-, hview, hid⟩ := view_accept hv host
    rw [hview]
    exact hl.open hid
  | connected c =>
    show (s.connected c).view.Logged
    rw [(view_connected hv c).2]
    exact hl
  | message c m =>
    show (s.process h c m).2.view.Logged
    obtain ⟨-, ⟨hview, -⟩ | ⟨d, hnames, hview⟩⟩ := view_process hv h c m
    · rw [hview]
      exact hl
    · rw [hview]
      exact hl.name (isConnected_of_names hnames) d
  | disconnected c =>
    show (s.disconnected h c).view.Logged
    cases hd : s.getId c with
    | none =>
      obtain hview | ⟨-, -, hview⟩ := view_disconnected_of_none hv h hd
      · rw [hview]
        exact hl
      · rw [hview]
        exact hl.close
    | some d =>
      obtain ⟨n, -, -, hview⟩ := view_disconnected_of_id hv h hd
      have hid := hv.getId_eq c
      rw [if_pos (hv.isConnected hd), hd] at hid
      rw [hview]
      exact hl.disconnect hid.symm

theorem logged_expire (hv : s.Valid) (hl : s.view.Logged) (c : ℕ) : (s.expire c).view.Logged := by
  obtain ⟨-, ⟨hview, -⟩ | ⟨-, hview⟩⟩ := view_expire hv c
  · rw [hview]
    exact hl
  · rw [hview]
    exact hl.close

end Controller

namespace Watched

open Controller

variable {σ : Type} {h : Handlers σ} {watcher : ℕ → ℕ} {w : Watched σ}

/-- In the next step a connection that has completed the handshake ends, and some module is not told
or the switches map keeps its switch. -/
def Misses (h : Handlers σ) (watcher : ℕ → ℕ) (w : Watched σ) : WatchEvent → Prop
  | .event (.disconnected c) => watcher c ∉ w.dead ∧ w.controller.Drops h c
  | .expire c => w.controller.getId c ≠ none ∧
      (h.processDisconnect ≠ [] ∨ ∃ d, w.controller.switches.get d = some c)
  | .event _ | .stale _ => False

/-- What holds in every state. -/
structure Sound (w : Watched σ) : Prop where
  valid : w.controller.Valid
  logged : w.controller.view.Logged

theorem sound_start (modules : σ) : (start modules).Sound :=
  ⟨valid_new modules, fun _ hx => absurd hx List.not_mem_nil⟩

theorem Sound.event (hs : w.Sound) (h : Handlers σ) (e : Event) (dead : List ℕ) :
    Sound ⟨w.controller.handle h e, dead⟩ :=
  ⟨hs.valid.handle h e, logged_handle hs.valid hs.logged h e⟩

theorem Sound.step (hs : w.Sound) (h : Handlers σ) (watcher : ℕ → ℕ) (e : WatchEvent) :
    (step h watcher w e).Sound := by
  cases e with
  | event e =>
    cases e with
    | accept host => exact hs.event h (.accept host) w.dead
    | message c m => exact hs.event h (.message c m) w.dead
    | connected c =>
      dsimp only [Watched.step]
      split_ifs
      · exact hs
      · exact hs.event h (.connected c) w.dead
    | disconnected c =>
      dsimp only [Watched.step]
      split_ifs
      · exact hs
      · exact hs.event h (.disconnected c) w.dead
  | expire c => exact ⟨(view_expire hs.valid c).1, logged_expire hs.valid hs.logged c⟩
  | stale c =>
    dsimp only [Watched.step]
    split_ifs
    · exact ⟨hs.valid, hs.logged⟩
    · exact hs

end Watched

end Torpedo
