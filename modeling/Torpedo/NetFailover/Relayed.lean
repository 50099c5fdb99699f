import Torpedo.NetFailover.NetFailover
import Torpedo.Topology.ShortestPathCosts

/-!
# Routes on removed links

The thread asks for the routes of half of the pairs of access switches: it leaves out those from the lower to the
higher datapath id. So a switch is told of a removed link if some route from the higher to the lower id meets the
link and goes through the switch, which says nothing about the route in the other direction. The routes are those
of the instance before the latest change, which need not be the change that the update is of. A round ends the
thread if the access switches or one of the routes cannot be told, and a full queue ends the loop over the updates.
-/

namespace Torpedo

/-! ## Instances -/

namespace NetFailover

/-- The cached routes of both instances are those that would be built. -/
structure Cached (s : NetFailover) : Prop where
  current : ∀ t, s.manager.currentInstance = some t → t.Cached
  old : ∀ t, s.oldInstance = some t → t.Cached

/-- A state that the thread comes to: it has deleted flows and cached routes. -/
structure Works (s s' : NetFailover) : Prop where
  rest : s' = { s with
    manager := { s.manager with currentInstance := s'.manager.currentInstance }
    oldInstance := s'.oldInstance
    deleted := s'.deleted }
  current : Option.Rel TopologyInstance.SameButCache s.manager.currentInstance s'.manager.currentInstance
  old : Option.Rel TopologyInstance.SameButCache s.oldInstance s'.oldInstance
  cached : s'.Cached

variable {s s' : NetFailover}

theorem optionRel_refl (t : Option TopologyInstance) : Option.Rel TopologyInstance.SameButCache t t := by
  cases t with
  | none => exact .none
  | some t => exact .some (.refl t)

theorem Works.refl (h : s.Cached) : s.Works s := ⟨rfl, optionRel_refl _, optionRel_refl _, h⟩

theorem Works.delete (h : s.Works s') (deleted : List (Dpid × OFPort)) : s.Works { s' with deleted } where
  rest := by
    have hrest := h.rest
    conv_lhs => rw [hrest]
  current := h.current
  old := h.old
  cached := ⟨h.cached.current, h.cached.old⟩

/-- The routes in the old instance. -/
def oldRoute (s : NetFailover) (srcId dstId : Dpid) : Outcome (Option Route) :=
  match s.oldInstance with
  | none => .returned none
  | some t => t.route srcId dstId

/-- The routes in the current instance. -/
def currentRoute (s : NetFailover) (srcId dstId : Dpid) : Outcome (Option Route) :=
  match s.manager.currentInstance with
  | none => .nullPointer
  | some t => t.route srcId dstId

end NetFailover

namespace Failover

open NetFailover

variable {s s' : NetFailover}

/-- A way of asking for routes: it is answered as a table says, and leaves the state as the thread does. -/
def Asks (s : NetFailover) (routes : Dpid → Dpid → Outcome (Option Route))
    (getRoute : Dpid → Dpid → Method NetFailover (Option Route)) : Prop :=
  ∀ s', s.Works s' → ∀ srcId dstId,
    (∀ r, routes srcId dstId = .returned r →
      ∃ s'', getRoute srcId dstId s' = (.ok r, s'') ∧ s.Works s'' ∧ s''.deleted = s'.deleted) ∧
    ((∀ r, routes srcId dstId ≠ .returned r) → ∃ e, getRoute srcId dstId s' = (.error e, s'))

theorem answer_request {t : TopologyInstance} (h : t.Cached) (srcId dstId : Dpid) :
    (∀ r, t.route srcId dstId = .returned r →
      ∃ t', answer (t.request srcId dstId) = .ok (r, t') ∧ t.SameButCache t' ∧ t'.Cached) ∧
    ((∀ r, t.route srcId dstId ≠ .returned r) → ∃ e, answer (t.request srcId dstId) = .error e) := by
  cases hroute : t.route srcId dstId with
  | returned r =>
    obtain ⟨t', hrequest, hsame, hcached⟩ := h.request_returned hroute
    refine ⟨fun r' hr' => ?_, fun hr => absurd rfl (hr r)⟩
    cases hr'
    exact ⟨t', by rw [hrequest]; rfl, hsame, hcached⟩
  | nullPointer => exact ⟨nofun, fun _ => ⟨_, by rw [h.request_eq.1 hroute]; rfl⟩⟩
  | running => exact ⟨nofun, fun _ => ⟨_, by rw [h.request_eq.2 hroute]; rfl⟩⟩

theorem asks_getOldRoute (s : NetFailover) : Asks s s.oldRoute getOldRoute := by
  intro s' h srcId dstId
  unfold oldRoute getOldRoute
  rw [Method.get_bind_apply]
  have hold := h.old
  cases hs : s.oldInstance with
  | none =>
    rw [hs] at hold
    cases hs' : s'.oldInstance with
    | some t => rw [hs'] at hold; cases hold
    | none =>
      refine ⟨fun r hr => ?_, fun hr => absurd rfl (hr none)⟩
      cases hr
      exact ⟨s', rfl, h, rfl⟩
  | some t =>
    rw [hs] at hold
    cases hs' : s'.oldInstance with
    | none => rw [hs'] at hold; cases hold
    | some t' =>
      rw [hs'] at hold
      cases hold with
      | some hsame =>
        have hcached := h.cached.old t' hs'
        dsimp only
        rw [← hsame.route_eq]
        refine ⟨fun r hr => ?_, fun hr => ?_⟩
        · obtain ⟨t'', hanswer, hsame', hcached'⟩ := (answer_request hcached srcId dstId).1 r hr
          rw [hanswer]
          refine ⟨_, rfl, ⟨?_, h.current, ?_, ⟨h.cached.current, ?_⟩⟩, rfl⟩
          · have hrest := h.rest
            conv_lhs => rw [hrest]
          · rw [hs]
            exact .some (hsame.trans hsame')
          · intro t₁ ht₁
            obtain rfl := Option.some.inj ht₁
            exact hcached'
        · obtain ⟨e, hanswer⟩ := (answer_request hcached srcId dstId).2 hr
          rw [hanswer]
          exact ⟨e, rfl⟩

theorem asks_getRoute (s : NetFailover) : Asks s s.currentRoute getRoute := by
  intro s' h srcId dstId
  unfold currentRoute getRoute
  rw [Method.get_bind_apply]
  have hcurrent := h.current
  cases hs : s.manager.currentInstance with
  | none =>
    rw [hs] at hcurrent
    cases hs' : s'.manager.currentInstance with
    | some t => rw [hs'] at hcurrent; cases hcurrent
    | none => exact ⟨nofun, fun _ => ⟨_, rfl⟩⟩
  | some t =>
    rw [hs] at hcurrent
    cases hs' : s'.manager.currentInstance with
    | none => rw [hs'] at hcurrent; cases hcurrent
    | some t' =>
      rw [hs'] at hcurrent
      cases hcurrent with
      | some hsame =>
        have hcached := h.cached.current t' hs'
        dsimp only
        rw [← hsame.route_eq, Method.nonNull_some, Method.pure_bind]
        refine ⟨fun r hr => ?_, fun hr => ?_⟩
        · obtain ⟨t'', hanswer, hsame', hcached'⟩ := (answer_request hcached srcId dstId).1 r hr
          rw [hanswer]
          refine ⟨_, rfl, ⟨?_, ?_, h.old, ⟨?_, h.cached.old⟩⟩, rfl⟩
          · have hrest := h.rest
            conv_lhs => rw [hrest]
          · rw [hs]
            exact .some (hsame.trans hsame')
          · intro t₁ ht₁
            obtain rfl := Option.some.inj ht₁
            exact hcached'
        · obtain ⟨e, hanswer⟩ := (answer_request hcached srcId dstId).2 hr
          rw [hanswer]
          exact ⟨e, rfl⟩

/-! ## The loops -/

/-- The flows that are deleted for the ports of a route. -/
def records (view : SwitchView) (outPort : NodePortTuple → OFPort) (npts : List NodePortTuple) :
    List (Dpid × OFPort) :=
  (npts.filter fun npt => view.connected npt.nodeId).map fun npt => (npt.nodeId, outPort npt)

theorem records_cons (view : SwitchView) (outPort : NodePortTuple → OFPort) (npt : NodePortTuple)
    (npts : List NodePortTuple) :
    records view outPort (npt :: npts) = records view outPort [npt] ++ records view outPort npts := by
  unfold records
  rw [← List.map_append, ← List.filter_append]
  rfl

theorem removeOutgoingFlowRecord_apply (view : SwitchView) (outPort : NodePortTuple → OFPort)
    (npt : NodePortTuple) (s : NetFailover) : removeOutgoingFlowRecord view npt.nodeId (outPort npt) s =
      (.ok (), { s with deleted := s.deleted ++ records view outPort [npt] }) := by
  unfold removeOutgoingFlowRecord records
  by_cases hconnected : view.connected npt.nodeId
  · simp [hconnected]
  · simp [hconnected]

theorem forEach_removeOutgoingFlowRecord (view : SwitchView) (outPort : NodePortTuple → OFPort)
    (npts : List NodePortTuple) (s : NetFailover) :
    Method.forEach (fun npt => removeOutgoingFlowRecord view npt.nodeId (outPort npt)) npts s =
      (.ok (), { s with deleted := s.deleted ++ records view outPort npts }) := by
  induction npts generalizing s with
  | nil => simp [records]
  | cons npt npts ih =>
    rw [Method.forEach_cons, Method.bind_ok (removeOutgoingFlowRecord_apply view outPort npt s), ih,
      records_cons view outPort npt npts, List.append_assoc]

variable (p : Failover)

/-- The flows that are deleted for a pair of switches. -/
def deletions (link : Link) (routes : Dpid → Dpid → Outcome (Option Route))
    (records : Route → List (Dpid × OFPort)) (s d : Dpid) : List (Dpid × OFPort) :=
  if s ≤ d then []
  else match routes s d with
    | .returned (some r) => if p.mightTraverse r link then records r else []
    | _ => []

/-- Every request is answered. -/
def Answered (routes : Dpid → Dpid → Outcome (Option Route)) (pairs : List (Dpid × Dpid)) : Prop :=
  ∀ pair ∈ pairs, pair.2 < pair.1 → ∃ r, routes pair.1 pair.2 = .returned r

section Loops

variable (link : Link) {routes : Dpid → Dpid → Outcome (Option Route)}
  {getRoute : Dpid → Dpid → Method NetFailover (Option Route)} {remove : Route → Method NetFailover Unit}
  {records : Route → List (Dpid × OFPort)}

theorem removeBetween_ok (hasks : Asks s routes getRoute)
    (hremove : ∀ r s', remove r s' = (.ok (), { s' with deleted := s'.deleted ++ records r }))
    (h : s.Works s') {srcId dstId : Dpid} (hret : dstId < srcId → ∃ r, routes srcId dstId = .returned r) :
    ∃ s'', p.removeBetween link getRoute remove srcId dstId s' = (.ok (), s'') ∧ s.Works s'' ∧
      s''.deleted = s'.deleted ++ p.deletions link routes records srcId dstId := by
  unfold removeBetween deletions
  by_cases hle : srcId ≤ dstId
  · rw [if_pos hle, if_pos hle]
    exact ⟨s', rfl, h, (List.append_nil _).symm⟩
  · obtain ⟨r, hr⟩ := hret (Int64.not_le.1 hle)
    obtain ⟨s'', hget, hworks, hdeleted⟩ := (hasks s' h srcId dstId).1 r hr
    rw [if_neg hle, if_neg hle, Method.bind_ok hget, hr]
    cases r with
    | none => exact ⟨s'', rfl, hworks, hdeleted.trans (List.append_nil _).symm⟩
    | some r =>
      dsimp only
      split_ifs
      · exact ⟨_, hremove r s'', hworks.delete _, congrArg (· ++ _) hdeleted⟩
      · exact ⟨s'', rfl, hworks, hdeleted.trans (List.append_nil _).symm⟩

theorem removeBetween_error (remove : Route → Method NetFailover Unit) (hasks : Asks s routes getRoute)
    (h : s.Works s') {srcId dstId : Dpid} (hlt : dstId < srcId) (hret : ∀ r, routes srcId dstId ≠ .returned r) :
    ∃ e, p.removeBetween link getRoute remove srcId dstId s' = (.error e, s') := by
  obtain ⟨e, hget⟩ := (hasks s' h srcId dstId).2 hret
  unfold removeBetween
  rw [if_neg (Int64.not_le.2 hlt), Method.bind_error hget]
  exact ⟨e, rfl⟩

/-- All pairs are gone through if every request is answered. -/
theorem forEach_removeBetween_ok (hasks : Asks s routes getRoute)
    (hremove : ∀ r s', remove r s' = (.ok (), { s' with deleted := s'.deleted ++ records r }))
    {pairs : List (Dpid × Dpid)} (hpairs : Answered routes pairs) (h : s.Works s') :
    ∃ s'', Method.forEach (fun pair => p.removeBetween link getRoute remove pair.1 pair.2) pairs s' =
        (.ok (), s'') ∧ s.Works s'' ∧
      s''.deleted = s'.deleted ++ pairs.flatMap fun pair => p.deletions link routes records pair.1 pair.2 := by
  induction pairs generalizing s' with
  | nil => exact ⟨s', rfl, h, (List.append_nil _).symm⟩
  | cons pair pairs ih =>
    obtain ⟨s₁, hfirst, hworks, hdeleted⟩ :=
      removeBetween_ok p link hasks hremove h (hpairs pair List.mem_cons_self)
    obtain ⟨s₂, hrest, hworks', hdeleted'⟩ := ih (fun ab hab => hpairs ab (List.mem_cons_of_mem _ hab)) hworks
    refine ⟨s₂, (Method.bind_ok hfirst).trans hrest, hworks', ?_⟩
    rw [hdeleted', hdeleted, List.flatMap_cons, List.append_assoc]

/-- A request that is not answered ends the loop. -/
theorem forEach_removeBetween_error (hasks : Asks s routes getRoute)
    (hremove : ∀ r s', remove r s' = (.ok (), { s' with deleted := s'.deleted ++ records r }))
    {pairs : List (Dpid × Dpid)} (hpairs : ¬Answered routes pairs) (h : s.Works s') :
    ∃ e s'', Method.forEach (fun pair => p.removeBetween link getRoute remove pair.1 pair.2) pairs s' =
      (.error e, s'') ∧ s.Works s'' := by
  induction pairs generalizing s' with
  | nil => exact absurd (fun _ => nofun) hpairs
  | cons pair pairs ih =>
    by_cases hpair : pair.2 < pair.1 → ∃ r, routes pair.1 pair.2 = .returned r
    · obtain ⟨s₁, hfirst, hworks, -⟩ :=
        removeBetween_ok p link hasks hremove h hpair
      have hrest : ¬Answered routes pairs := fun hrest => hpairs fun ab hab => by
        obtain rfl | hab := List.mem_cons.1 hab
        · exact hpair
        · exact hrest ab hab
      obtain ⟨e, s₂, herror, hworks'⟩ := ih hrest hworks
      exact ⟨e, s₂, (Method.bind_ok hfirst).trans herror, hworks'⟩
    · push Not at hpair
      obtain ⟨e, herror⟩ := removeBetween_error p link remove hasks h hpair.1 hpair.2
      exact ⟨e, s', Method.bind_error herror, h⟩

/-- The pairs of the nested loops. -/
def pairsOf (asws : List Dpid) : List (Dpid × Dpid) :=
  (p.order.iter asws).flatMap fun s => (p.order.iter asws).map (s, ·)

theorem mem_pairsOf {asws : List Dpid} {pair : Dpid × Dpid} :
    pair ∈ p.pairsOf asws ↔ pair.1 ∈ asws ∧ pair.2 ∈ asws := by
  unfold pairsOf
  rw [List.mem_flatMap]
  constructor
  · rintro ⟨s, hs, hpair⟩
    obtain ⟨d, hd, rfl⟩ := List.mem_map.1 hpair
    exact ⟨(p.order.mem_iter).1 hs, (p.order.mem_iter).1 hd⟩
  · rintro ⟨hs, hd⟩
    exact ⟨pair.1, (p.order.mem_iter).2 hs, List.mem_map.2 ⟨pair.2, (p.order.mem_iter).2 hd, rfl⟩⟩

theorem removeRoutes_ok (view : SwitchView) (h : s.Cached) (hasks : Asks s routes getRoute)
    (hremove : ∀ r s', remove r s' = (.ok (), { s' with deleted := s'.deleted ++ records r })) {asws : List Dpid}
    (haccess : view.getAccessSwitches s.manager.currentInstance = .ok asws)
    (hpairs : Answered routes (p.pairsOf asws)) :
    ∃ s', p.removeRoutes view link getRoute remove s = (.ok (), s') ∧ s.Works s' ∧
      s'.deleted = s.deleted ++
        (p.pairsOf asws).flatMap fun pair => p.deletions link routes records pair.1 pair.2 := by
  unfold removeRoutes
  rw [Method.get_bind_apply, haccess, Method.ofExcept_ok, Method.pure_bind, Method.forEach_forEach]
  exact forEach_removeBetween_ok p link hasks hremove hpairs (.refl h)

theorem removeRoutes_error (view : SwitchView) (h : s.Cached) (hasks : Asks s routes getRoute)
    (hremove : ∀ r s', remove r s' = (.ok (), { s' with deleted := s'.deleted ++ records r }))
    (hstops : ∀ asws, view.getAccessSwitches s.manager.currentInstance = .ok asws →
      ¬Answered routes (p.pairsOf asws)) :
    ∃ e s', p.removeRoutes view link getRoute remove s = (.error e, s') ∧ s.Works s' := by
  unfold removeRoutes
  rw [Method.get_bind_apply]
  cases haccess : view.getAccessSwitches s.manager.currentInstance with
  | error e => exact ⟨e, s, rfl, .refl h⟩
  | ok asws =>
    rw [Method.ofExcept_ok, Method.pure_bind, Method.forEach_forEach]
    exact forEach_removeBetween_error p link hasks hremove (hstops asws haccess) (.refl h)

end Loops

/-! ## A round of the thread -/

/-- The link that an update removes. -/
def Removes : LDUpdate → Link → Prop
  | .link src srcPort dst dstPort _ operation, link =>
    operation = .linkRemoved ∧ link = ⟨src, srcPort, dst, dstPort⟩
  | .port _ _ _, _ => False
  | .switch _ _, _ => False

/-- The routes that are asked for on behalf of an update. -/
def routesFor (s : NetFailover) : LDUpdate → Dpid → Dpid → Outcome (Option Route)
  | .link _ _ _ _ _ operation => if operation = .linkUpdated then s.currentRoute else s.oldRoute
  | .port _ _ _ => fun _ _ => .returned none
  | .switch _ _ => fun _ _ => .returned none

/-- The access switches cannot be told, or a route between two of them cannot. -/
def Stops (view : SwitchView) (s : NetFailover) (update : LDUpdate) : Prop :=
  isRelayed update = true ∧ ∀ asws, view.getAccessSwitches s.manager.currentInstance = .ok asws →
    ¬Answered (routesFor s update) (p.pairsOf asws)

variable {p} {view : SwitchView}

theorem relay_error (h : s.Cached) {update : LDUpdate} (hstops : p.Stops view s update) :
    ∃ e s', p.relay view update s = (.error e, s') ∧ s.Works s' := by
  obtain ⟨hrelayed, hstops⟩ := hstops
  cases update with
  | port => cases hrelayed
  | switch => cases hrelayed
  | link src srcPort dst dstPort type operation =>
    unfold relay
    unfold routesFor at hstops
    dsimp only at hstops ⊢
    obtain rfl | rfl : operation = .linkUpdated ∨ operation = .linkRemoved := of_decide_eq_true hrelayed
    · rw [if_pos rfl] at hstops ⊢
      exact removeRoutes_error p _ view h (asks_getRoute s)
        (fun r s' => forEach_removeOutgoingFlowRecord view (fun _ => OFPort.any) r.switchPorts s') hstops
    · rw [if_neg (by decide)] at hstops ⊢
      rw [if_pos rfl]
      exact removeRoutes_error p _ view h (asks_getOldRoute s)
        (fun r s' => forEach_removeOutgoingFlowRecord view NodePortTuple.portId r.switchPorts s') hstops

/-- The flows that are deleted on behalf of a removed link. -/
def deletionsFor (p : Failover) (view : SwitchView) (s : NetFailover) (link : Link) (asws : List Dpid) :
    List (Dpid × OFPort) :=
  (p.pairsOf asws).flatMap fun pair => p.deletions link s.oldRoute
    (fun r => records view NodePortTuple.portId r.switchPorts) pair.1 pair.2

theorem relay_ok (h : s.Cached) {update : LDUpdate} (hstops : ¬p.Stops view s update) :
    ∃ s', p.relay view update s = (.ok (), s') ∧ s.Works s' ∧ ∀ link, Removes update link →
      ∀ asws, view.getAccessSwitches s.manager.currentInstance = .ok asws →
        s'.deleted = s.deleted ++ p.deletionsFor view s link asws := by
  cases update with
  | port => exact ⟨s, rfl, .refl h, fun _ => False.elim⟩
  | switch => exact ⟨s, rfl, .refl h, fun _ => False.elim⟩
  | link src srcPort dst dstPort type operation =>
    by_cases hrelayed : operation = .linkUpdated ∨ operation = .linkRemoved
    · have hanswered : ∃ asws, view.getAccessSwitches s.manager.currentInstance = .ok asws ∧
          Answered (routesFor s (.link src srcPort dst dstPort type operation)) (p.pairsOf asws) := by
        by_contra hnot
        push Not at hnot
        exact hstops ⟨decide_eq_true hrelayed, hnot⟩
      obtain ⟨asws, haccess, hanswered⟩ := hanswered
      unfold relay
      unfold routesFor at hanswered
      dsimp only at hanswered ⊢
      obtain rfl | rfl := hrelayed
      · rw [if_pos rfl] at hanswered ⊢
        obtain ⟨s', hrun, hworks, -⟩ := removeRoutes_ok p ⟨src, srcPort, dst, dstPort⟩ view h (asks_getRoute s)
          (fun r s' => forEach_removeOutgoingFlowRecord view (fun _ => OFPort.any) r.switchPorts s') haccess hanswered
        exact ⟨s', hrun, hworks, fun link hlink => nomatch hlink.1⟩
      · rw [if_neg (by decide)] at hanswered ⊢
        rw [if_pos rfl]
        obtain ⟨s', hrun, hworks, hdeleted⟩ := removeRoutes_ok p ⟨src, srcPort, dst, dstPort⟩ view h (asks_getOldRoute s)
          (fun r s' => forEach_removeOutgoingFlowRecord view NodePortTuple.portId r.switchPorts s') haccess hanswered
        refine ⟨s', hrun, hworks, ?_⟩
        rintro link ⟨-, rfl⟩ asws' haccess'
        obtain rfl := Except.ok.inj (haccess.symm.trans haccess')
        exact hdeleted
    · push Not at hrelayed
      unfold relay
      dsimp only
      rw [if_neg hrelayed.1, if_neg hrelayed.2]
      exact ⟨s, rfl, .refl h, fun link hlink => absurd hlink.1 hrelayed.2⟩

/-! ## The cache along a run -/

theorem cached_initial : initial.Cached where
  current t ht := by
    obtain rfl := Option.some.inj ht
    intro id result hmem
    cases hmem
  old t := nofun

theorem take_idle (h : s.running = false ∨ s.queue = []) : p.take view s = s := by
  unfold take
  obtain h | h := h
  · rw [h]
  · rw [h]
    cases s.running <;> rfl

theorem take_cons (hrunning : s.running = true) {q : QueuedUpdate} {queue : List QueuedUpdate}
    (hqueue : s.queue = q :: queue) : p.take view s =
      match p.relay view q.update { s with queue } with
      | (.ok _, s') => s'
      | (.error _, s') => { s' with running := false } := by
  obtain ⟨manager, oldInstance, queue', running, deleted⟩ := s
  obtain rfl : running = true := hrunning
  obtain rfl : queue' = q :: queue := hqueue
  rfl

theorem cached_take (h : s.Cached) (view : SwitchView) : (p.take view s).Cached := by
  by_cases hidle : s.running = false ∨ s.queue = []
  · rw [take_idle hidle]
    exact h
  · push Not at hidle
    obtain ⟨q, queue, hqueue⟩ := List.exists_cons_of_ne_nil hidle.2
    have hstart : Cached { s with queue } := ⟨h.current, h.old⟩
    rw [take_cons (Bool.eq_true_of_not_eq_false hidle.1) hqueue]
    by_cases hstops : p.Stops view { s with queue } q.update
    · obtain ⟨e, s', hrelay, hworks⟩ := relay_error hstart hstops
      rw [hrelay]
      exact ⟨hworks.cached.current, hworks.cached.old⟩
    · obtain ⟨s', hrelay, hworks, -⟩ := relay_ok hstart hstops
      rw [hrelay]
      exact hworks.cached

theorem currentInstance_applyUpdate (m : TopologyManager) (u : LDUpdate) :
    (m.applyUpdate u).currentInstance = m.currentInstance := by
  cases u with
  | port => rfl
  | switch => rfl
  | link src srcPort dst dstPort type operation =>
    unfold TopologyManager.applyUpdate
    dsimp only
    split_ifs
    · cases type <;> rfl
    · rfl
    · rfl

theorem currentInstance_applyUpdates (m : TopologyManager) :
    m.applyUpdates.currentInstance = m.currentInstance := by
  show (m.ldUpdates.foldl TopologyManager.applyUpdate m).currentInstance = m.currentInstance
  generalize m.ldUpdates = us
  induction us generalizing m with
  | nil => rfl
  | cons u us ih => rw [List.foldl_cons, ih, currentInstance_applyUpdate]

theorem cached_updateTopology (h : s.Cached) : (p.updateTopology s).Cached := by
  unfold updateTopology
  cases hupdate : s.manager.updateTopology p.order p.nodeQueue with
  | none => exact h
  | some r =>
    obtain ⟨created, manager⟩ := r
    dsimp only
    unfold TopologyManager.updateTopology TopologyManager.createNewInstance at hupdate
    split_ifs at hupdate with hlinks
    · obtain ⟨rfl, rfl⟩ := Prod.mk.inj (Option.some.inj hupdate)
      refine ⟨fun t ht => h.current t ?_, h.old⟩
      exact (currentInstance_applyUpdates { s.manager with linksUpdated := false, dtLinksUpdated := false }).symm.trans ht
    · obtain ⟨nt, hnt, hnew⟩ := Option.bind_eq_some_iff.1 hupdate
      obtain ⟨rfl, rfl⟩ := Prod.mk.inj (Option.some.inj hnew)
      refine ⟨fun t ht => ?_, h.current⟩
      obtain rfl := Option.some.inj ht
      exact TopologyInstance.cached_compute hnt

theorem cached_step (h : s.Cached) (e : FailoverEvent) : (p.step s e).Cached := by
  cases e with
  | linkDiscoveryUpdate update => exact ⟨h.current, h.old⟩
  | updateTopology => exact cached_updateTopology h
  | take view => exact cached_take h view
  | getRoute srcId dstId =>
    obtain ⟨hreturned, herror⟩ := asks_getRoute s s (.refl h) srcId dstId
    show (getRoute srcId dstId s).2.Cached
    by_cases hroute : ∃ r, s.currentRoute srcId dstId = .returned r
    · obtain ⟨r, hr⟩ := hroute
      obtain ⟨s', hget, hworks, -⟩ := hreturned r hr
      rw [hget]
      exact hworks.cached
    · push Not at hroute
      obtain ⟨e, hget⟩ := herror hroute
      rw [hget]
      exact h

/-! ## Updates of a change -/

def isRemoval : LDUpdate → Bool
  | .link _ _ _ _ _ operation => decide (operation = .linkRemoved)
  | .port _ _ _ => false
  | .switch _ _ => false

/-- The queue takes in as much as it has room for. -/
theorem putAll_eq (before : Option TopologyInstance) (us : List LDUpdate) (queue : List QueuedUpdate) :
    putAll before us queue =
      queue ++ ((us.filter isRelayed).take (capacity - queue.length)).map (⟨·, before⟩) := by
  induction us generalizing queue with
  | nil => simp [putAll]
  | cons u us ih =>
    unfold putAll
    by_cases hrelayed : isRelayed u
    · rw [if_pos hrelayed, List.filter_cons_of_pos hrelayed]
      split_ifs with hroom
      · obtain ⟨room, hroom'⟩ : ∃ room, capacity - queue.length = room + 1 :=
          ⟨capacity - queue.length - 1, by omega⟩
        have hrest : capacity - (queue ++ [(⟨u, before⟩ : QueuedUpdate)]).length = room := by
          rw [List.length_append, List.length_singleton]
          omega
        rw [ih, hrest, hroom', List.take_succ_cons, List.map_cons, List.append_assoc]
        rfl
      · rw [Nat.sub_eq_zero_of_le (Nat.le_of_not_lt hroom)]
        simp
    · rw [if_neg hrelayed, List.filter_cons_of_neg hrelayed]
      exact ih queue

/-! ## Flow deletions -/

/-- The route goes over the link. -/
def Traverses (r : Route) (link : Link) : Prop := [link.srcNpt, link.dstNpt] <:+: r.switchPorts

/-- Each switch of the route that is connected has been told to delete flows. -/
def Told (view : SwitchView) (deleted : List (Dpid × OFPort)) (r : Route) : Prop :=
  ∀ npt ∈ r.switchPorts, view.connected npt.nodeId = true → ∃ outPort, (npt.nodeId, outPort) ∈ deleted

/-- A change puts all its removals into the queue, and a round of the thread takes out an update and lives on; if
the update removes a link, each switch is told of every route between access switches that went over the link in
the instance before the change. -/
def Relays (p : Failover) (s : NetFailover) : FailoverEvent → Prop
  | .updateTopology => ∀ created manager, s.manager.updateTopology p.order p.nodeQueue = some (created, manager) →
    (p.step s .updateTopology).queue.filter (isRemoval ·.update) = s.queue.filter (isRemoval ·.update) ++
      (manager.appliedUpdates.filter isRemoval).map
        (⟨·, if created then s.manager.currentInstance else s.oldInstance⟩)
  | .take view => ∀ q queue, s.queue = q :: queue →
    (p.step s (.take view)).queue = queue ∧ (p.step s (.take view)).running = true ∧
      ∀ link, Removes q.update link → ∃ new, (p.step s (.take view)).deleted = s.deleted ++ new ∧
        ∀ asws, view.getAccessSwitches s.manager.currentInstance = .ok asws → ∀ before, q.before = some before →
          ∀ srcId ∈ asws, ∀ dstId ∈ asws, ∀ r, before.route srcId dstId = .returned (some r) →
            Traverses r link → Told view new r
  | .linkDiscoveryUpdate _ => True
  | .getRoute _ _ => True

/-- A switch of a route on the link is on no route of the old instance that is in the loops and meets the link. -/
def Misses (p : Failover) (view : SwitchView) (s : NetFailover) (q : QueuedUpdate) (link : Link) : Prop :=
  ∃ asws before srcId dstId r npt, view.getAccessSwitches s.manager.currentInstance = .ok asws ∧
    q.before = some before ∧ srcId ∈ asws ∧ dstId ∈ asws ∧ before.route srcId dstId = .returned (some r) ∧
    Traverses r link ∧ npt ∈ r.switchPorts ∧ view.connected npt.nodeId = true ∧
    ∀ srcId' ∈ asws, ∀ dstId' ∈ asws, dstId' < srcId' → ∀ r', s.oldRoute srcId' dstId' = .returned (some r') →
      p.mightTraverse r' link = true → ∀ npt' ∈ r'.switchPorts, npt'.nodeId ≠ npt.nodeId

/-- A change has more updates than there is room for in the queue; or the thread has come to an end, it does so with
the next update, or it leaves out a switch of a route on a removed link. -/
def Fails (p : Failover) (s : NetFailover) : FailoverEvent → Prop
  | .updateTopology => ∃ created manager, s.manager.updateTopology p.order p.nodeQueue = some (created, manager) ∧
    ∃ u ∈ (manager.appliedUpdates.filter isRelayed).drop (capacity - s.queue.length), isRemoval u = true
  | .take view => ∃ q queue, s.queue = q :: queue ∧
    (s.running = false ∨ p.Stops view s q.update ∨ ∃ link, Removes q.update link ∧ p.Misses view s q link)
  | .linkDiscoveryUpdate _ => False
  | .getRoute _ _ => False

/-- The switches that flows are deleted at. -/
theorem exists_mem_deletionsFor {link : Link} {asws : List Dpid} {sw : Dpid} :
    (∃ outPort, (sw, outPort) ∈ p.deletionsFor view s link asws) ↔
      ∃ srcId ∈ asws, ∃ dstId ∈ asws, dstId < srcId ∧ ∃ r, s.oldRoute srcId dstId = .returned (some r) ∧
        p.mightTraverse r link = true ∧ ∃ npt ∈ r.switchPorts, npt.nodeId = sw ∧ view.connected sw = true := by
  unfold deletionsFor deletions
  constructor
  · rintro ⟨outPort, hmem⟩
    obtain ⟨pair, hpair, hmem⟩ := List.mem_flatMap.1 hmem
    obtain ⟨hsrc, hdst⟩ := (mem_pairsOf p).1 hpair
    split_ifs at hmem with hle
    · cases hmem
    · split at hmem
      · rename_i r hroute
        split_ifs at hmem with htraverse
        · obtain ⟨npt, hnpt, hrecord⟩ := List.mem_map.1 hmem
          obtain ⟨hnpt, hconnected⟩ := List.mem_filter.1 hnpt
          obtain ⟨rfl, rfl⟩ := Prod.mk.inj hrecord
          exact ⟨pair.1, hsrc, pair.2, hdst, Int64.not_le.1 hle, r, hroute, htraverse, npt, hnpt, rfl, hconnected⟩
        · cases hmem
      · cases hmem
  · rintro ⟨srcId, hsrc, dstId, hdst, hlt, r, hroute, htraverse, npt, hnpt, rfl, hconnected⟩
    refine ⟨npt.portId, List.mem_flatMap.2 ⟨(srcId, dstId), (mem_pairsOf p).2 ⟨hsrc, hdst⟩, ?_⟩⟩
    dsimp only
    rw [if_neg (Int64.not_le.2 hlt), hroute]
    dsimp only
    rw [if_pos htraverse]
    exact List.mem_map.2 ⟨npt, List.mem_filter.2 ⟨hnpt, hconnected⟩, rfl⟩

/-- All removals are put in if they are among the first. -/
theorem filter_putAll (before : Option TopologyInstance) (us : List LDUpdate) (queue : List QueuedUpdate) :
    (putAll before us queue).filter (isRemoval ·.update) =
        queue.filter (isRemoval ·.update) ++ (us.filter isRemoval).map (⟨·, before⟩) ↔
      ∀ u ∈ (us.filter isRelayed).drop (capacity - queue.length), isRemoval u = false := by
  generalize hn : capacity - queue.length = n
  have hrelayed : us.filter isRemoval = (us.filter isRelayed).filter isRemoval := by
    rw [List.filter_filter]
    refine List.filter_congr fun u _ => ?_
    cases u with
    | link => simp +contextual [isRemoval, isRelayed]
    | port => rfl
    | switch => rfl
  have hsplit : (us.filter isRelayed).filter isRemoval =
      ((us.filter isRelayed).take n).filter isRemoval ++ ((us.filter isRelayed).drop n).filter isRemoval := by
    rw [← List.filter_append, List.take_append_drop]
  have hmap (l : List LDUpdate) : (l.map fun u => (⟨u, before⟩ : QueuedUpdate)).filter (isRemoval ·.update) =
      (l.filter isRemoval).map (⟨·, before⟩) := List.filter_map
  rw [putAll_eq, hn, List.filter_append, hmap, hrelayed, hsplit, List.map_append, ← List.append_assoc]
  simp [List.filter_eq_nil_iff]

theorem relays_updateTopology_iff : p.Relays s .updateTopology ↔ ¬p.Fails s .updateTopology := by
  unfold Relays Fails
  have hqueue {created : Bool} {manager : TopologyManager}
      (hupdate : s.manager.updateTopology p.order p.nodeQueue = some (created, manager)) :
      (p.step s .updateTopology).queue = putAll (if created then s.manager.currentInstance else s.oldInstance)
        manager.appliedUpdates s.queue := by
    show (p.updateTopology s).queue = _
    unfold updateTopology
    rw [hupdate]
  constructor
  · rintro h ⟨created, manager, hupdate, u, hu, hremoval⟩
    have hall := h created manager hupdate
    rw [hqueue hupdate, filter_putAll] at hall
    rw [hall u hu] at hremoval
    cases hremoval
  · intro h created manager hupdate
    rw [hqueue hupdate, filter_putAll]
    exact fun u hu => Bool.eq_false_of_not_eq_true fun hremoval => h ⟨created, manager, hupdate, u, hu, hremoval⟩

/-- The deletions leave nothing out if each switch is on some route that is looked at. -/
theorem told_iff {q : QueuedUpdate} {link : Link} {asws : List Dpid}
    (haccess : view.getAccessSwitches s.manager.currentInstance = .ok asws) :
    (∀ before, q.before = some before → ∀ srcId ∈ asws, ∀ dstId ∈ asws, ∀ r,
      before.route srcId dstId = .returned (some r) → Traverses r link →
        Told view (p.deletionsFor view s link asws) r) ↔ ¬p.Misses view s q link := by
  constructor
  · rintro h ⟨asws', before, srcId, dstId, r, npt, haccess', hbefore, hsrc, hdst, hroute, htraverses, hnpt,
      hconnected, hnone⟩
    obtain rfl := Except.ok.inj (haccess.symm.trans haccess')
    obtain ⟨srcId', hsrc', dstId', hdst', hlt, r', hroute', hmight, npt', hnpt', hnode, -⟩ :=
      exists_mem_deletionsFor.1 (h before hbefore srcId hsrc dstId hdst r hroute htraverses npt hnpt hconnected)
    exact hnone srcId' hsrc' dstId' hdst' hlt r' hroute' hmight npt' hnpt' hnode
  · intro h before hbefore srcId hsrc dstId hdst r hroute htraverses npt hnpt hconnected
    refine exists_mem_deletionsFor.2 ?_
    by_contra hnone
    refine h ⟨asws, before, srcId, dstId, r, npt, haccess, hbefore, hsrc, hdst, hroute, htraverses, hnpt,
      hconnected, ?_⟩
    intro srcId' hsrc' dstId' hdst' hlt r' hroute' hmight npt' hnpt' hnode
    exact hnone ⟨srcId', hsrc', dstId', hdst', hlt, r', hroute', hmight, npt', hnpt', hnode, hconnected⟩

theorem isRelayed_of_removes {update : LDUpdate} {link : Link} (h : Removes update link) :
    isRelayed update = true := by
  cases update with
  | link => exact decide_eq_true (Or.inr h.1)
  | port => exact h.elim
  | switch => exact h.elim

/-- A thread that goes on leaves the rest of the queue. -/
theorem take_goesOn (h : s.Cached) (hrunning : s.running = true) {q : QueuedUpdate} {queue : List QueuedUpdate}
    (hqueue : s.queue = q :: queue) (hstops : ¬p.Stops view s q.update) :
    (p.take view s).queue = queue ∧ (p.take view s).running = true ∧ ∀ link, Removes q.update link →
      ∃ asws, view.getAccessSwitches s.manager.currentInstance = .ok asws ∧
        (p.take view s).deleted = s.deleted ++ p.deletionsFor view s link asws := by
  obtain ⟨s', hrelay, hworks, hdeleted⟩ := relay_ok (s := { s with queue }) ⟨h.current, h.old⟩ hstops
  rw [take_cons hrunning hqueue, hrelay]
  refine ⟨congrArg (·.queue) hworks.rest, (congrArg (·.running) hworks.rest).trans hrunning, fun link hlink => ?_⟩
  have haccess : ∃ asws, view.getAccessSwitches s.manager.currentInstance = .ok asws := by
    by_contra hnone
    exact hstops ⟨isRelayed_of_removes hlink, fun asws haccess => absurd ⟨asws, haccess⟩ hnone⟩
  obtain ⟨asws, haccess⟩ := haccess
  exact ⟨asws, haccess, hdeleted link hlink asws haccess⟩

/-- A thread that ends is not running behind the round. -/
theorem take_ends (h : s.Cached) {q : QueuedUpdate} {queue : List QueuedUpdate}
    (hqueue : s.queue = q :: queue) (hstops : s.running = false ∨ p.Stops view s q.update) :
    (p.take view s).running = false := by
  by_cases hrunning : s.running = false
  · rw [take_idle (.inl hrunning)]
    exact hrunning
  · obtain ⟨e, s', hrelay, -⟩ :=
      relay_error (s := { s with queue }) ⟨h.current, h.old⟩ (hstops.resolve_left hrunning)
    rw [take_cons (Bool.eq_true_of_not_eq_false hrunning) hqueue, hrelay]

theorem relays_take_iff (h : s.Cached) : p.Relays s (.take view) ↔ ¬p.Fails s (.take view) := by
  unfold Relays Fails
  dsimp only [step]
  constructor
  · rintro hrelays ⟨q, queue, hqueue, hfails⟩
    obtain ⟨-, hrunning', hall⟩ := hrelays q queue hqueue
    by_cases hstops : s.running = false ∨ p.Stops view s q.update
    · rw [take_ends h hqueue hstops] at hrunning'
      cases hrunning'
    · push Not at hstops
      obtain ⟨link, hlink, hmisses⟩ := (hfails.resolve_left hstops.1).resolve_left hstops.2
      obtain ⟨asws, haccess, hdeleted⟩ :=
        (take_goesOn h (Bool.eq_true_of_not_eq_false hstops.1) hqueue hstops.2).2.2 link hlink
      obtain ⟨new, hnew, htold⟩ := hall link hlink
      obtain rfl := List.append_cancel_left (hdeleted.symm.trans hnew)
      exact (told_iff haccess).1 (htold asws haccess) hmisses
  · intro hfails q queue hqueue
    have hstops : ¬(s.running = false ∨ p.Stops view s q.update) := fun hstops =>
      hfails ⟨q, queue, hqueue, hstops.imp_right .inl⟩
    push Not at hstops
    obtain ⟨hrest, hrunning, hall⟩ :=
      take_goesOn h (Bool.eq_true_of_not_eq_false hstops.1) hqueue hstops.2
    refine ⟨hrest, hrunning, fun link hlink => ?_⟩
    obtain ⟨asws, haccess, hdeleted⟩ := hall link hlink
    refine ⟨_, hdeleted, fun asws' haccess' => ?_⟩
    obtain rfl := Except.ok.inj (haccess.symm.trans haccess')
    exact (told_iff haccess).2 fun hmisses => hfails ⟨q, queue, hqueue, .inr (.inr ⟨link, hlink, hmisses⟩)⟩

theorem relays_step_iff (h : s.Cached) (e : FailoverEvent) : p.Relays s e ↔ ¬p.Fails s e := by
  cases e with
  | linkDiscoveryUpdate update => exact ⟨fun _ => id, fun _ => trivial⟩
  | updateTopology => exact relays_updateTopology_iff
  | take view => exact relays_take_iff h
  | getRoute srcId dstId => exact ⟨fun _ => id, fun _ => trivial⟩

theorem cached_run (es : List FailoverEvent) : (Machine.run p.step initial es).Cached :=
  Machine.run_invariant (I := Cached) (fun _ e h => cached_step h e) cached_initial es

/-- Each change of a run is relayed to the switches if and only if no step fails. -/
theorem relays_iff_clean (p : Failover) (es : List FailoverEvent) :
    (∀ pre e post, es = pre ++ e :: post → p.Relays (Machine.run p.step initial pre) e) ↔
      Machine.Clean p.step p.Fails initial es := by
  rw [Machine.clean_iff]
  refine forall_congr' fun pre => forall_congr' fun e => forall_congr' fun post => imp_congr_right fun _ => ?_
  exact relays_step_iff (cached_run pre) e

/-! ## A ring -/

/-- Four switches, and a host at each of the switches 1 and 2. -/
def ring : Failover where
  order := .insertion
  nodeQueue := .following []
  bloom := ⟨fun npts npt => decide (npt ∈ npts), fun _ _ h => decide_eq_true h⟩

def ringView : SwitchView where
  getSwitchIdentifiers := [1, 2, 3, 4]
  getPorts sw := some (if sw = 1 ∨ sw = 2 then [1, 2, 3] else [1, 2])
  portEnabled _ _ := true
  connected _ := true

/-- The routes between the hosts go through switch 3, and back through switch 4. -/
def ringUp : List FailoverEvent :=
  [.linkDiscoveryUpdate (.link 1 1 3 1 .directLink .linkUpdated),
   .linkDiscoveryUpdate (.link 3 2 2 1 .directLink .linkUpdated),
   .linkDiscoveryUpdate (.link 2 2 4 1 .directLink .linkUpdated),
   .linkDiscoveryUpdate (.link 4 2 1 2 .directLink .linkUpdated),
   .updateTopology, .take ringView, .take ringView, .take ringView, .take ringView]

/-- The first link of the ring is removed. -/
def linkDown : List FailoverEvent :=
  [.linkDiscoveryUpdate (.link 1 1 3 1 .directLink .linkRemoved), .updateTopology]

/-- No switch is told of the route to switch 2: the route back does not meet the link. -/
theorem not_relays_ring : ¬∀ (p : Failover) (es : List FailoverEvent) pre e post, es = pre ++ e :: post →
    p.Relays (Machine.run p.step initial pre) e := by
  intro h
  have hrelays := h ring _ (ringUp ++ linkDown) (.take ringView) [] rfl
  generalize hs : Machine.run ring.step initial (ringUp ++ linkDown) = s at hrelays
  have hqueue : s.queue.map (·.update) = [.link 1 1 3 1 .directLink .linkRemoved] := by
    rw [← hs]
    decide +kernel
  have hroute : (s.queue.head?.bind (·.before)).map (·.route 1 2) =
      some (.returned (some ⟨⟨1, 2⟩, [⟨1, 1⟩, ⟨3, 1⟩, ⟨3, 2⟩, ⟨2, 1⟩]⟩)) := by
    rw [← hs]
    decide +kernel
  have haccess : (ringView.getAccessSwitches s.manager.currentInstance).toOption = some [1, 2, 3] := by
    rw [← hs]
    decide +kernel
  have hnone : (ring.step s (.take ringView)).deleted = s.deleted := by
    rw [← hs]
    decide +kernel
  obtain ⟨q, hq, hupdate⟩ := List.map_eq_singleton_iff.1 hqueue
  obtain ⟨-, -, hall⟩ := hrelays q [] hq
  obtain ⟨new, hnew, htold⟩ := hall ⟨1, 1, 3, 1⟩ (by rw [hupdate]; exact ⟨rfl, rfl⟩)
  obtain rfl : new = [] := List.append_right_eq_self.1 (hnew.symm.trans hnone)
  rw [hq] at hroute
  obtain ⟨before, hbefore, hroute⟩ := Option.map_eq_some_iff.1 hroute
  cases hasws : ringView.getAccessSwitches s.manager.currentInstance with
  | error e => rw [hasws] at haccess; cases haccess
  | ok asws =>
    rw [hasws] at haccess
    obtain rfl := Option.some.inj haccess
    obtain ⟨outPort, hmem⟩ := htold _ hasws before hbefore 1 (by decide) 2 (by decide) _ hroute
      ⟨[], [⟨3, 2⟩, ⟨2, 1⟩], rfl⟩ ⟨3, 1⟩ (by decide) rfl
    cases hmem

end Failover

end Torpedo
