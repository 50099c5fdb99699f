import Torpedo.Controller.ResponseCache

/-!
# Replies and their requests

A request that waits is found under its switch and its transaction id, and one that is over is not, in every run in
which no request makes a second map for a switch while another one waits, or goes on with a map that has been replaced,
or sees that the switch has no connection while its list is in the cache; and in no other (`delivers_iff_clean`).
-/

namespace Torpedo

/-! ## Phases -/

namespace RequestPhase

/-- It has got a map, or has put its own. -/
def hasMap : RequestPhase → Bool
  | called => false
  | creating => false
  | _ => true

/-- The map in which the list has been put. -/
def entered : RequestPhase → Option ℕ
  | stored rcache => some rcache
  | checked rcache => some rcache
  | waiting rcache => some rcache
  | woken rcache => some rcache
  | removing rcache _ => some rcache
  | ended rcache => some rcache
  | _ => none

/-- The map in which the list still is. -/
def listed : RequestPhase → Option ℕ
  | stored rcache => some rcache
  | checked rcache => some rcache
  | waiting rcache => some rcache
  | woken rcache => some rcache
  | removing rcache _ => some rcache
  | _ => none

/-- The map in hand. -/
def hand : RequestPhase → Option ℕ
  | holding rcache => some rcache
  | p => p.entered

theorem entered_of_listed {p : RequestPhase} {rcache : ℕ} (h : p.listed = some rcache) : p.entered = some rcache := by
  cases p <;> first | exact h | cases h

end RequestPhase

namespace ResponseCache

open RequestPhase

variable {s s' : ResponseCache} {r d rcache : ℕ} {q : SwitchRequest} {p : RequestPhase}

/-! ## Invariants -/

/-- The map is one that a request has put for the switch. -/
def Known (s : ResponseCache) (sw rcache : ℕ) : Prop :=
  ∃ q, s.requests.get rcache = some q ∧ q.sw = sw ∧ q.phase.hasMap = true

/-- What is known of a request. -/
structure RequestOk (s : ResponseCache) (r : ℕ) (q : SwitchRequest) : Prop where
  known : ∀ rcache, q.phase.hand = some rcache → s.Known q.sw rcache
  listed : ∀ rcache, q.phase.listed = some rcache → (s.rcaches rcache).get q.xid = some r
  current : ∀ rcache current, q.phase = .removing rcache current →
    s.Known q.sw current ∧ (s.responsesCache.get q.sw = some rcache → current = rcache)

/-- What is known of a delivery. -/
def DeliveryOk (s : ResponseCache) (reply : SwitchReply) : DeliveryPhase → Prop
  | .holding rcache _ => s.Known reply.sw rcache
  | .found (some r) _ => ∃ q, s.requests.get r = some q ∧ q.sw = reply.sw ∧ q.xid = reply.xid
  | .found none _ => True
  | .added _ => True

structure Valid (s : ResponseCache) : Prop where
  distinct : ∀ r r' q q', s.requests.get r = some q → s.requests.get r' = some q' → q.xid = q'.xid → r = r'
  request : ∀ r q, s.requests.get r = some q → s.RequestOk r q
  cache : ∀ sw rcache, s.responsesCache.get sw = some rcache → s.Known sw rcache
  entry : ∀ rcache xid r, (s.rcaches rcache).get xid = some r →
    ∃ q, s.requests.get r = some q ∧ q.xid = xid ∧ q.phase.entered = some rcache
  delivery : ∀ d reply phase, s.deliveries.get d = some (reply, phase) → s.DeliveryOk reply phase
  mine : ∀ r reply, reply ∈ s.responses r →
    ∃ q, s.requests.get r = some q ∧ q.sw = reply.sw ∧ q.xid = reply.xid

/-- Every request is still there, with its switch and its transaction id, and has gone on. -/
structure Goes (s s' : ResponseCache) : Prop where
  request : ∀ r q, s.requests.get r = some q → ∃ q', s'.requests.get r = some q' ∧ q'.sw = q.sw ∧ q'.xid = q.xid ∧
    (q.phase.hasMap = true → q'.phase.hasMap = true) ∧
    ∀ rcache, q.phase.entered = some rcache → q'.phase.entered = some rcache

theorem Goes.known (h : Goes s s') {sw : ℕ} (hknown : s.Known sw rcache) : s'.Known sw rcache := by
  obtain ⟨q, hq, hsw, hmap⟩ := hknown
  obtain ⟨q', hq', hsw', -, hmap', -⟩ := h.request rcache q hq
  exact ⟨q', hq', hsw'.trans hsw, hmap' hmap⟩

theorem Goes.same (h : Goes s s') {sw xid : ℕ} (hq : ∃ q, s.requests.get r = some q ∧ q.sw = sw ∧ q.xid = xid) :
    ∃ q, s'.requests.get r = some q ∧ q.sw = sw ∧ q.xid = xid := by
  obtain ⟨q, hq, rfl, rfl⟩ := hq
  obtain ⟨q', hq', hsw, hxid, -⟩ := h.request r q hq
  exact ⟨q', hq', hsw, hxid⟩

theorem Goes.deliveryOk (h : Goes s s') {reply : SwitchReply} {phase : DeliveryPhase}
    (hok : s.DeliveryOk reply phase) : s'.DeliveryOk reply phase := by
  cases phase with
  | holding rcache waits => exact h.known hok
  | found response waits =>
    cases response with
    | none => trivial
    | some r => exact h.same hok
  | added r => trivial

theorem goes_of_requests (h : s'.requests = s.requests) : Goes s s' where
  request r q hq := ⟨q, by rw [h]; exact hq, rfl, rfl, id, fun _ => id⟩

theorem get_move (s : ResponseCache) (r : ℕ) (q : SwitchRequest) (p : RequestPhase) (r' : ℕ) :
    (s.move r q p).requests.get r' = if r' = r then some { q with phase := p } else s.requests.get r' :=
  HashMap.get_put ..

/-- One request goes on. -/
theorem goes_move (hq : s.requests.get r = some q) (hmap : q.phase.hasMap = true → p.hasMap = true)
    (hentered : ∀ rcache, q.phase.entered = some rcache → p.entered = some rcache) : Goes s (s.move r q p) where
  request r' q' hq' := by
    rw [get_move]
    split_ifs with hr
    · subst hr
      obtain rfl := Option.some.inj (hq.symm.trans hq')
      exact ⟨_, rfl, rfl, rfl, hmap, hentered⟩
    · exact ⟨q', hq', rfl, rfl, id, fun _ => id⟩

/-- The maps of the other requests are what they were. -/
theorem RequestOk.goes (hok : s.RequestOk r q) (h : Goes s s')
    (hlisted : ∀ rcache, q.phase.listed = some rcache → (s'.rcaches rcache).get q.xid = (s.rcaches rcache).get q.xid)
    (hcache : ∀ rcache current, q.phase = .removing rcache current → s'.responsesCache.get q.sw = some rcache →
      s.responsesCache.get q.sw = some rcache) : s'.RequestOk r q where
  known rcache hhand := h.known (hok.known rcache hhand)
  listed rcache hphase := (hlisted rcache hphase).trans (hok.listed rcache hphase)
  current rcache current hphase := ⟨h.known (hok.current rcache current hphase).1,
    fun hget => (hok.current rcache current hphase).2 (hcache rcache current hphase hget)⟩

/-- A step in which one request goes on, and perhaps the maps change. -/
theorem Valid.goes (h : s.Valid) (hq : s.requests.get r = some q) {p : RequestPhase}
    (hrequests : s'.requests = (s.move r q p).requests)
    (hdeliveries : s'.deliveries = s.deliveries) (hresponses : s'.responses = s.responses)
    (hgoes : Goes s s') (hok : s'.RequestOk r { q with phase := p })
    (hothers : ∀ r' q', r' ≠ r → s.requests.get r' = some q' → s'.RequestOk r' q')
    (hcache : ∀ sw rcache, s'.responsesCache.get sw = some rcache → s'.Known sw rcache)
    (hentry : ∀ rcache xid r', (s'.rcaches rcache).get xid = some r' →
      (s.rcaches rcache).get xid = some r' ∨ r' = r ∧ xid = q.xid ∧ p.entered = some rcache) : s'.Valid where
  distinct r₁ r₂ q₁ q₂ h₁ h₂ hxid := by
    rw [hrequests, get_move] at h₁ h₂
    have hold : ∀ r' q', (if r' = r then some { q with phase := p } else s.requests.get r') = some q' →
        ∃ q'', s.requests.get r' = some q'' ∧ q''.xid = q'.xid := by
      intro r' q' h'
      split_ifs at h' with hr
      · subst hr
        obtain rfl := Option.some.inj h'
        exact ⟨q, hq, rfl⟩
      · exact ⟨q', h', rfl⟩
    obtain ⟨q₁', h₁', hx₁⟩ := hold r₁ q₁ h₁
    obtain ⟨q₂', h₂', hx₂⟩ := hold r₂ q₂ h₂
    exact h.distinct r₁ r₂ q₁' q₂' h₁' h₂' ((hx₁.trans hxid).trans hx₂.symm)
  request r' q' h' := by
    rw [hrequests, get_move] at h'
    split_ifs at h' with hr
    · subst hr
      obtain rfl := Option.some.inj h'
      exact hok
    · exact hothers r' q' hr h'
  cache := hcache
  entry rcache xid r' hget := by
    obtain hold | ⟨rfl, rfl, hentered⟩ := hentry rcache xid r' hget
    · obtain ⟨q', hq', hxid, hentered⟩ := h.entry rcache xid r' hold
      obtain ⟨q'', hq'', -, hxid', -, hentered'⟩ := hgoes.request r' q' hq'
      exact ⟨q'', hq'', hxid'.trans hxid, hentered' rcache hentered⟩
    · refine ⟨{ q with phase := p }, ?_, rfl, hentered⟩
      rw [hrequests, get_move, if_pos rfl]
  delivery d reply phase hget := by
    rw [hdeliveries] at hget
    exact hgoes.deliveryOk (h.delivery d reply phase hget)
  mine r' reply hmem := by
    rw [hresponses] at hmem
    exact hgoes.same (h.mine r' reply hmem)

theorem Valid.move (h : s.Valid) (hq : s.requests.get r = some q) (hmap : q.phase.hasMap = true → p.hasMap = true)
    (hentered : ∀ rcache, q.phase.entered = some rcache → p.entered = some rcache)
    (hok : (s.move r q p).RequestOk r { q with phase := p }) : (s.move r q p).Valid := by
  have hgoes := goes_move hq hmap hentered
  refine h.goes hq rfl rfl rfl hgoes hok (fun r' q' _ hq' => ?_) (fun sw rcache hget => hgoes.known (h.cache sw rcache hget))
    fun _ _ _ => .inl
  exact (h.request r' q' hq').goes hgoes (fun _ _ => rfl) fun _ _ _ => id

/-! ## What a step does -/

/-- The next thing is a look at the connection, of a statistics request. -/
def AtCheck (q : SwitchRequest) (rcache : ℕ) : Prop := q.kind = .statistics ∧ q.phase = .stored rcache

/-- The next thing is to write the request. -/
def AtWrite (q : SwitchRequest) (rcache : ℕ) : Prop :=
  q.kind = .statistics ∧ q.phase = .checked rcache ∨ q.kind = .features ∧ q.phase = .stored rcache

/-- A request goes on to another phase, and no map changes. -/
inductive Advances (s : ResponseCache) (r : ℕ) (q : SwitchRequest) : ResponseStep → RequestPhase → Prop
  | hold {rcache : ℕ} : q.phase = .called → s.responsesCache.get q.sw = some rcache →
    Advances s r q (.getMap r) (.holding rcache)
  | create : q.phase = .called → s.responsesCache.get q.sw = none → Advances s r q (.getMap r) .creating
  | check {rcache : ℕ} : AtCheck q rcache → s.connected q.sw = true → Advances s r q (.check r) (.checked rcache)
  | leave {rcache : ℕ} : AtCheck q rcache → s.connected q.sw = false → Advances s r q (.check r) (.ended rcache)
  | send {rcache : ℕ} : AtWrite q rcache → s.connected q.sw = true → Advances s r q (.write r) (.waiting rcache)
  | throw {rcache : ℕ} : AtWrite q rcache → s.connected q.sw = false → Advances s r q (.write r) (.ended rcache)
  | wake {rcache : ℕ} : q.phase = .waiting rcache → Advances s r q (.wake r) (.woken rcache)
  | getRemoved {rcache current : ℕ} : q.phase = .woken rcache → s.responsesCache.get q.sw = some current →
    Advances s r q (.getRemoved r) (.removing rcache current)
  | gone {rcache : ℕ} : q.phase = .woken rcache → s.responsesCache.get q.sw = none →
    Advances s r q (.getRemoved r) (.ended rcache)

inductive Moves (s : ResponseCache) : ResponseStep → ResponseCache → Prop
  | same (a : ResponseStep) : Moves s a s
  | call {r : ℕ} (kind : RequestKind) (sw xid : ℕ) : s.requests.get r = none →
    (∀ r' q, s.requests.get r' = some q → q.xid ≠ xid) →
    Moves s (.call r kind sw xid) (s.move r ⟨kind, sw, xid, .called⟩ .called)
  | advance {r : ℕ} {q : SwitchRequest} {a : ResponseStep} {p : RequestPhase} : s.requests.get r = some q →
    Advances s r q a p → Moves s a (s.move r q p)
  | putMap {r : ℕ} {q : SwitchRequest} : s.requests.get r = some q → q.phase = .creating →
    Moves s (.putMap r) { s.move r q (.holding r) with responsesCache := s.responsesCache.put q.sw r }
  | putItem {r rcache : ℕ} {q : SwitchRequest} : s.requests.get r = some q → q.phase = .holding rcache →
    Moves s (.putItem r) { s.move r q (.stored rcache) with
      rcaches := Function.update s.rcaches rcache ((s.rcaches rcache).put q.xid r) }
  | removeItem {r rcache current : ℕ} {q : SwitchRequest} : s.requests.get r = some q →
    q.phase = .removing rcache current → Moves s (.removeItem r) { s.move r q (.ended rcache) with
      rcaches := Function.update s.rcaches current ((s.rcaches current).remove q.xid) }
  | connect (sw : ℕ) (connected : Bool) :
    Moves s (.connect sw connected) { s with connected := Function.update s.connected sw connected }
  | miss {d : ℕ} {reply : SwitchReply} : s.responsesCache.get reply.sw = none →
    Moves s (.arrive d reply) { s with
      deliveries := s.deliveries.put d (reply, .found none (s.waitingFor reply.sw reply.xid)) }
  | arrive {d rcache : ℕ} {reply : SwitchReply} : s.responsesCache.get reply.sw = some rcache →
    Moves s (.arrive d reply) { s with
      deliveries := s.deliveries.put d (reply, .holding rcache (s.waitingFor reply.sw reply.xid)) }
  | getItem {d rcache : ℕ} {reply : SwitchReply} {waits : Option ℕ} :
    s.deliveries.get d = some (reply, .holding rcache waits) → Moves s (.getItem d) { s with
      deliveries := s.deliveries.put d
        (reply, .found ((s.rcaches rcache).get reply.xid) (waits.filter fun r => s.Waits reply.sw reply.xid r)) }
  | add {d response : ℕ} {reply : SwitchReply} {waits : Option ℕ} :
    s.deliveries.get d = some (reply, .found (some response) waits) → Moves s (.add d) { s with
      responses := Function.update s.responses response (s.responses response ++ [reply])
      deliveries := s.deliveries.put d (reply, .added response) }

theorem moves_step (s : ResponseCache) (a : ResponseStep) : Moves s a (step s a) := by
  cases a with
  | call r kind sw xid =>
    unfold step
    dsimp only
    split_ifs with hused
    · exact .same _
    · rw [not_or] at hused
      refine .call kind sw xid (Option.not_isSome_iff_eq_none.1 hused.1) fun r' q hq hxid => hused.2 ⟨r', ?_, ?_⟩
      · exact (HashMap.mem_keySet_iff _).2 ⟨q, hq⟩
      · rw [hq, ← hxid]
        rfl
  | getMap r =>
    unfold step
    dsimp only
    split
    · next kind sw xid hq =>
      split
      · next rcache hrcache => exact .advance hq (.hold rfl hrcache)
      · next hnone => exact .advance hq (.create rfl hnone)
    · exact .same _
  | putMap r =>
    unfold step
    dsimp only
    split
    · next hq => exact .putMap hq rfl
    · exact .same _
  | putItem r =>
    unfold step
    dsimp only
    split
    · next hq => exact .putItem hq rfl
    · exact .same _
  | check r =>
    unfold step
    dsimp only
    split
    · next sw xid rcache hq =>
      cases hconnected : s.connected sw with
      | true => exact .advance hq (.check ⟨rfl, rfl⟩ hconnected)
      | false => exact .advance hq (.leave ⟨rfl, rfl⟩ hconnected)
    · exact .same _
  | write r =>
    unfold step
    dsimp only
    split
    · next sw xid rcache hq =>
      cases hconnected : s.connected sw with
      | true => exact .advance hq (.send (.inl ⟨rfl, rfl⟩) hconnected)
      | false => exact .advance hq (.throw (.inl ⟨rfl, rfl⟩) hconnected)
    · next sw xid rcache hq =>
      cases hconnected : s.connected sw with
      | true => exact .advance hq (.send (.inr ⟨rfl, rfl⟩) hconnected)
      | false => exact .advance hq (.throw (.inr ⟨rfl, rfl⟩) hconnected)
    · exact .same _
  | wake r =>
    unfold step
    dsimp only
    split
    · next hq => exact .advance hq (.wake rfl)
    · exact .same _
  | getRemoved r =>
    unfold step
    dsimp only
    split
    · next kind sw xid rcache hq =>
      split
      · next current hcurrent => exact .advance hq (.getRemoved rfl hcurrent)
      · next hnone => exact .advance hq (.gone rfl hnone)
    · exact .same _
  | removeItem r =>
    unfold step
    dsimp only
    split
    · next hq => exact .removeItem hq rfl
    · exact .same _
  | connect sw connected => exact .connect sw connected
  | arrive d reply =>
    unfold step
    dsimp only
    split_ifs
    · exact .same _
    · split
      · next hnone => exact .miss hnone
      · next rcache hrcache => exact .arrive hrcache
  | getItem d =>
    unfold step
    dsimp only
    split
    · next hd => exact .getItem hd
    · exact .same _
  | add d =>
    unfold step
    dsimp only
    split
    · next hd => exact .add hd
    · exact .same _

/-! ## The invariants are kept -/

/-- A map that no request has put is empty. -/
theorem Valid.get_rcaches (h : s.Valid) (hq : s.requests.get r = some q) (hmap : q.phase.hasMap = false) (xid : ℕ) :
    (s.rcaches r).get xid = none := by
  refine Option.eq_none_iff_forall_not_mem.2 fun r' hget => ?_
  obtain ⟨q', hq', -, hentered⟩ := h.entry r xid r' hget
  have hhand : q'.phase.hand = some r := by
    cases hphase : q'.phase <;> rw [hphase] at hentered <;> first | exact hentered | cases hentered
  obtain ⟨q'', hq'', -, hmap'⟩ := (h.request r' q' hq').known r hhand
  obtain rfl := Option.some.inj (hq.symm.trans hq'')
  rw [hmap] at hmap'
  cases hmap'

theorem requestOk_stay (h : s.Valid) (hq : s.requests.get r = some q) (hgoes : Goes s (s.move r q p))
    (hhand : ∀ rcache, p.hand = some rcache → q.phase.hand = some rcache ∨ s.responsesCache.get q.sw = some rcache)
    (hlisted : ∀ rcache, p.listed = some rcache → q.phase.listed = some rcache)
    (hcurrent : ∀ rcache current, p = .removing rcache current → s.responsesCache.get q.sw = some current) :
    (s.move r q p).RequestOk r { q with phase := p } where
  known rcache hp := by
    obtain hold | hget := hhand rcache hp
    · exact hgoes.known ((h.request r q hq).known rcache hold)
    · exact hgoes.known (h.cache q.sw rcache hget)
  listed rcache hp := (h.request r q hq).listed rcache (hlisted rcache hp)
  current rcache current hp := by
    have hget := hcurrent rcache current hp
    refine ⟨hgoes.known (h.cache q.sw current hget), fun hrcache => ?_⟩
    exact Option.some.inj (hget.symm.trans hrcache)

theorem valid_advance (h : s.Valid) (hq : s.requests.get r = some q) {a : ResponseStep} (ha : s.Advances r q a p) :
    (s.move r q p).Valid := by
  have hstay : (q.phase.hasMap = true → p.hasMap = true) →
      (∀ rcache, q.phase.entered = some rcache → p.entered = some rcache) →
      (∀ rcache, p.hand = some rcache → q.phase.hand = some rcache ∨ s.responsesCache.get q.sw = some rcache) →
      (∀ rcache, p.listed = some rcache → q.phase.listed = some rcache) →
      (∀ rcache current, p = .removing rcache current → s.responsesCache.get q.sw = some current) →
      (s.move r q p).Valid := fun hmap hentered hhand hlisted hcurrent =>
    h.move hq hmap hentered (requestOk_stay h hq (goes_move hq hmap hentered) hhand hlisted hcurrent)
  cases ha with
  | hold hphase hget =>
    refine hstay (fun _ => rfl) ?_ ?_ nofun nofun
    · rw [hphase]
      nofun
    · rintro _ ⟨⟩
      exact .inr hget
  | create hphase hget =>
    refine hstay ?_ ?_ nofun nofun nofun
    · rw [hphase]
      nofun
    · rw [hphase]
      nofun
  | check hat => refine hstay ?_ ?_ ?_ ?_ ?_ <;> simp [hat.2, hasMap, entered, hand, listed]
  | leave hat => refine hstay ?_ ?_ ?_ ?_ ?_ <;> simp [hat.2, hasMap, entered, hand, listed]
  | send hat =>
    obtain ⟨-, hphase⟩ | ⟨-, hphase⟩ := hat <;> refine hstay ?_ ?_ ?_ ?_ ?_ <;>
      simp [hphase, hasMap, entered, hand, listed]
  | throw hat =>
    obtain ⟨-, hphase⟩ | ⟨-, hphase⟩ := hat <;> refine hstay ?_ ?_ ?_ ?_ ?_ <;>
      simp [hphase, hasMap, entered, hand, listed]
  | wake hphase => refine hstay ?_ ?_ ?_ ?_ ?_ <;> simp [hphase, hasMap, entered, hand, listed]
  | getRemoved hphase hget =>
    refine hstay ?_ ?_ ?_ ?_ ?_ <;> simp [hphase, hasMap, entered, hand, listed, hget]
  | gone hphase hget => refine hstay ?_ ?_ ?_ ?_ ?_ <;> simp [hphase, hasMap, entered, hand, listed]

/-- A request puts the map that it has made. -/
theorem valid_putMap (h : s.Valid) (hq : s.requests.get r = some q) (hphase : q.phase = .creating) :
    Valid { s.move r q (.holding r) with responsesCache := s.responsesCache.put q.sw r } := by
  have hmove : Goes s (s.move r q (.holding r)) :=
    goes_move hq (fun _ => rfl) (by rw [hphase]; nofun)
  have hgoes : Goes s { s.move r q (.holding r) with responsesCache := s.responsesCache.put q.sw r } := ⟨hmove.request⟩
  have hown : Known { s.move r q (.holding r) with responsesCache := s.responsesCache.put q.sw r } q.sw r :=
    ⟨{ q with phase := .holding r }, (get_move ..).trans (if_pos rfl), rfl, rfl⟩
  refine h.goes hq rfl rfl rfl hgoes ⟨?_, nofun, nofun⟩ (fun r' q' hne hq' => ?_) (fun sw rcache hget => ?_) fun _ _ _ => .inl
  · rintro _ ⟨⟩
    exact hown
  · refine (h.request r' q' hq').goes hgoes (fun _ _ => rfl) fun rcache current hp hget => ?_
    have hget : (s.responsesCache.put q.sw r).get q'.sw = some rcache := hget
    rw [HashMap.get_put] at hget
    split_ifs at hget
    · -- the map of a request that has it in hand has been put before
      obtain rfl := Option.some.inj hget
      obtain ⟨q'', hq'', -, hmap⟩ := (h.request r' q' hq').known r (by rw [hp]; rfl)
      obtain rfl := Option.some.inj (hq.symm.trans hq'')
      rw [hphase] at hmap
      cases hmap
    · exact hget
  · have hget : (s.responsesCache.put q.sw r).get sw = some rcache := hget
    rw [HashMap.get_put] at hget
    split_ifs at hget with hsw
    · obtain rfl := Option.some.inj hget
      exact hsw ▸ hown
    · exact hgoes.known (h.cache sw rcache hget)

theorem valid_putItem (h : s.Valid) (hq : s.requests.get r = some q) (hphase : q.phase = .holding rcache) :
    Valid { s.move r q (.stored rcache) with
      rcaches := Function.update s.rcaches rcache ((s.rcaches rcache).put q.xid r) } := by
  have hmove : Goes s (s.move r q (.stored rcache)) := goes_move hq (fun _ => rfl) (by rw [hphase]; nofun)
  have hgoes : Goes s { s.move r q (.stored rcache) with
    rcaches := Function.update s.rcaches rcache ((s.rcaches rcache).put q.xid r) } := ⟨hmove.request⟩
  have hget : ∀ rcache' xid, (Function.update s.rcaches rcache ((s.rcaches rcache).put q.xid r) rcache').get xid =
      if rcache' = rcache ∧ xid = q.xid then some r else (s.rcaches rcache').get xid := by
    intro rcache' xid
    by_cases hr : rcache' = rcache
    · subst hr
      rw [Function.update_self, HashMap.get_put]
      simp
    · rw [Function.update_of_ne hr, if_neg fun hboth => hr hboth.1]
  refine h.goes hq rfl rfl rfl hgoes ⟨?_, ?_, nofun⟩ (fun r' q' hne hq' => ?_) (fun sw rcache hget => ?_)
    fun rcache' xid r' hr' => ?_
  · rintro _ ⟨⟩
    exact hgoes.known ((h.request r q hq).known rcache (by rw [hphase]; rfl))
  · rintro _ ⟨⟩
    exact (hget rcache q.xid).trans (if_pos ⟨rfl, rfl⟩)
  · refine (h.request r' q' hq').goes hgoes (fun rcache' hp => ?_) fun _ _ _ => id
    refine (hget rcache' q'.xid).trans (if_neg ?_)
    rintro ⟨-, hxid⟩
    exact hne (h.distinct r' r q' q hq' hq hxid)
  · exact hgoes.known (h.cache sw rcache hget)
  · have hr' := (hget rcache' xid).symm.trans hr'
    split_ifs at hr' with hboth
    · obtain rfl := Option.some.inj hr'
      exact .inr ⟨rfl, hboth.2, by rw [hboth.1]; rfl⟩
    · exact .inl hr'

theorem valid_removeItem (h : s.Valid) (hq : s.requests.get r = some q) {current : ℕ}
    (hphase : q.phase = .removing rcache current) : Valid { s.move r q (.ended rcache) with
      rcaches := Function.update s.rcaches current ((s.rcaches current).remove q.xid) } := by
  have hmove : Goes s (s.move r q (.ended rcache)) := by
    refine goes_move hq (fun _ => rfl) ?_
    rw [hphase]
    exact fun _ => id
  have hgoes : Goes s { s.move r q (.ended rcache) with
    rcaches := Function.update s.rcaches current ((s.rcaches current).remove q.xid) } := ⟨hmove.request⟩
  have hget : ∀ rcache' xid, (Function.update s.rcaches current ((s.rcaches current).remove q.xid) rcache').get xid =
      if rcache' = current ∧ xid = q.xid then none else (s.rcaches rcache').get xid := by
    intro rcache' xid
    by_cases hr : rcache' = current
    · subst hr
      rw [Function.update_self, HashMap.get_remove]
      simp
    · rw [Function.update_of_ne hr, if_neg fun hboth => hr hboth.1]
  refine h.goes hq rfl rfl rfl hgoes ⟨?_, nofun, nofun⟩ (fun r' q' hne hq' => ?_) (fun sw rcache hget => ?_)
    fun rcache' xid r' hr' => .inl ?_
  · rintro _ ⟨⟩
    exact hgoes.known ((h.request r q hq).known rcache (by rw [hphase]; rfl))
  · refine (h.request r' q' hq').goes hgoes (fun rcache' hp => ?_) fun _ _ _ => id
    refine (hget rcache' q'.xid).trans (if_neg ?_)
    rintro ⟨-, hxid⟩
    exact hne (h.distinct r' r q' q hq' hq hxid)
  · exact hgoes.known (h.cache sw rcache hget)
  · have hr' := (hget rcache' xid).symm.trans hr'
    split_ifs at hr'
    exact hr'

theorem valid_call (h : s.Valid) (kind : RequestKind) (sw xid : ℕ) (hnew : s.requests.get r = none)
    (hxid : ∀ r' q, s.requests.get r' = some q → q.xid ≠ xid) :
    (s.move r ⟨kind, sw, xid, .called⟩ .called).Valid := by
  have hold : ∀ r' q', s.requests.get r' = some q' →
      (s.move r ⟨kind, sw, xid, .called⟩ .called).requests.get r' = some q' := by
    intro r' q' hq'
    rw [get_move, if_neg]
    · exact hq'
    · rintro rfl
      rw [hnew] at hq'
      cases hq'
  have hgoes : Goes s (s.move r ⟨kind, sw, xid, .called⟩ .called) :=
    ⟨fun r' q' hq' => ⟨q', hold r' q' hq', rfl, rfl, id, fun _ => id⟩⟩
  refine ⟨fun r₁ r₂ q₁ q₂ h₁ h₂ hx => ?_, fun r' q' hq' => ?_, fun sw rcache hget => hgoes.known (h.cache sw rcache hget),
    fun rcache xid r' hget => ?_, fun d reply phase hget => hgoes.deliveryOk (h.delivery d reply phase hget),
    fun r' reply hmem => hgoes.same (h.mine r' reply hmem)⟩
  · rw [get_move] at h₁ h₂
    split_ifs at h₁ h₂ with hr₁ hr₂ hr₂
    · exact hr₁.trans hr₂.symm
    · obtain rfl := Option.some.inj h₁
      exact absurd hx.symm (hxid r₂ q₂ h₂)
    · obtain rfl := Option.some.inj h₂
      exact absurd hx (hxid r₁ q₁ h₁)
    · exact h.distinct r₁ r₂ q₁ q₂ h₁ h₂ hx
  · rw [get_move] at hq'
    split_ifs at hq' with hr
    · obtain rfl := Option.some.inj hq'
      exact ⟨nofun, nofun, nofun⟩
    · exact (h.request r' q' hq').goes hgoes (fun _ _ => rfl) fun _ _ _ => id
  · obtain ⟨q', hq', hx, hentered⟩ := h.entry rcache xid r' hget
    exact ⟨q', hold r' q' hq', hx, hentered⟩

/-- A step of a delivery leaves the requests and the maps alone. -/
theorem valid_deliver (h : s.Valid) {reply : SwitchReply} {phase : DeliveryPhase} (hok : s.DeliveryOk reply phase)
    {responses : ℕ → List SwitchReply} (hmine : ∀ r reply, reply ∈ responses r →
      ∃ q, s.requests.get r = some q ∧ q.sw = reply.sw ∧ q.xid = reply.xid) :
    Valid { s with responses := responses, deliveries := s.deliveries.put d (reply, phase) } := by
  have hgoes : Goes s { s with responses := responses, deliveries := s.deliveries.put d (reply, phase) } :=
    goes_of_requests rfl
  refine ⟨h.distinct, fun r q hq => (h.request r q hq).goes hgoes (fun _ _ => rfl) fun _ _ _ => id,
    fun sw rcache hget => hgoes.known (h.cache sw rcache hget), h.entry, fun d' reply' phase' hget => ?_, hmine⟩
  have hget : (s.deliveries.put d (reply, phase)).get d' = some (reply', phase') := hget
  rw [HashMap.get_put] at hget
  split_ifs at hget
  · obtain ⟨rfl, rfl⟩ := Prod.mk.inj (Option.some.inj hget)
    exact hgoes.deliveryOk hok
  · exact hgoes.deliveryOk (h.delivery d' reply' phase' hget)

/-- A list that is found is the list of a request with the same switch and transaction id. -/
theorem Valid.found (h : s.Valid) {reply : SwitchReply} {response : ℕ} (hknown : s.Known reply.sw rcache)
    (hget : (s.rcaches rcache).get reply.xid = some response) :
    ∃ q, s.requests.get response = some q ∧ q.sw = reply.sw ∧ q.xid = reply.xid := by
  obtain ⟨q, hq, hxid, hentered⟩ := h.entry rcache reply.xid response hget
  have hhand : q.phase.hand = some rcache := by
    cases hphase : q.phase <;> rw [hphase] at hentered <;> first | exact hentered | cases hentered
  obtain ⟨q', hq', hsw, -⟩ := (h.request response q hq).known rcache hhand
  obtain ⟨q'', hq'', hsw', -⟩ := hknown
  obtain rfl := Option.some.inj (hq'.symm.trans hq'')
  exact ⟨q, hq, hsw.symm.trans hsw', hxid⟩

theorem Valid.step (h : s.Valid) (a : ResponseStep) : (step s a).Valid := by
  have hmoves := moves_step s a
  generalize ResponseCache.step s a = s' at hmoves
  cases hmoves with
  | same => exact h
  | call kind sw xid hnew hxid => exact valid_call h kind sw xid hnew hxid
  | advance hq ha => exact valid_advance h hq ha
  | putMap hq hphase => exact valid_putMap h hq hphase
  | putItem hq hphase => exact valid_putItem h hq hphase
  | removeItem hq hphase => exact valid_removeItem h hq hphase
  | connect sw connected =>
    have hgoes : Goes s { s with connected := Function.update s.connected sw connected } := goes_of_requests rfl
    exact ⟨h.distinct, fun r q hq => (h.request r q hq).goes hgoes (fun _ _ => rfl) fun _ _ _ => id,
      fun sw rcache hget => hgoes.known (h.cache sw rcache hget), h.entry,
      fun d reply phase hget => hgoes.deliveryOk (h.delivery d reply phase hget), h.mine⟩
  | miss =>
    refine valid_deliver h ?_ h.mine
    trivial
  | arrive hget =>
    refine valid_deliver h ?_ h.mine
    exact h.cache _ _ hget
  | @getItem d rcache reply waits hd =>
    refine valid_deliver h ?_ h.mine
    cases hget : (s.rcaches rcache).get reply.xid with
    | none => trivial
    | some response => exact h.found (h.delivery d reply _ hd) hget
  | @add d response reply waits hd =>
    refine valid_deliver h ?_ fun r reply' hmem => ?_
    · trivial
    by_cases hr : r = response
    · subst hr
      rw [Function.update_self, List.mem_append, List.mem_singleton] at hmem
      obtain hmem | rfl := hmem
      · exact h.mine r reply' hmem
      · exact h.delivery d reply' _ hd
    · rw [Function.update_of_ne hr] at hmem
      exact h.mine r reply' hmem

theorem valid_initial (connected : ℕ → Bool) : (initial connected).Valid :=
  ⟨fun _ _ _ _ => nofun, fun _ _ => nofun, fun _ _ => nofun, fun _ _ _ => nofun, fun _ _ _ => nofun, fun _ _ => nofun⟩

/-! ## Replies -/

/-- A request that waits is found under its switch and its transaction id, and no request that is over is; a reply that
has come while its request waited has been given the map with its list, and then the list; and the lists have replies
of their own switches and transaction ids alone. -/
structure Delivers (s : ResponseCache) : Prop where
  waiting : ∀ r sw xid, s.Waits sw xid r → s.lookup sw xid = some r
  ended : ∀ r q rcache, s.requests.get r = some q → q.phase = .ended rcache → s.lookup q.sw q.xid = none
  underway : ∀ d reply rcache r, s.deliveries.get d = some (reply, .holding rcache (some r)) →
    ∃ q, s.requests.get r = some q ∧ q.xid = reply.xid ∧ q.phase.entered = some rcache
  found : ∀ d reply response r, s.deliveries.get d = some (reply, .found response (some r)) → response = some r
  mine : ∀ r reply, reply ∈ s.responses r →
    ∃ q, s.requests.get r = some q ∧ q.sw = reply.sw ∧ q.xid = reply.xid

/-- A step by which a request that waits is lost, or one that is over leaves its list. -/
def Loses (s : ResponseCache) : ResponseStep → Prop
  | .putMap r => ∃ q, s.requests.get r = some q ∧ q.phase = .creating ∧ ∃ r' xid, s.Waits q.sw xid r'
  | .check r => ∃ q rcache, s.requests.get r = some q ∧ AtCheck q rcache ∧ s.connected q.sw = false ∧
    s.responsesCache.get q.sw = some rcache
  | .write r => ∃ q rcache, s.requests.get r = some q ∧ AtWrite q rcache ∧
    (s.connected q.sw = true ∧ s.responsesCache.get q.sw ≠ some rcache ∨
      s.connected q.sw = false ∧ s.responsesCache.get q.sw = some rcache)
  | _ => False

section Lookup

/-- A list that is in its map is found if the map is still the one of the switch. -/
theorem lookup_listed (h : s.Valid) (hq : s.requests.get r = some q) (hlisted : q.phase.listed = some rcache) :
    s.lookup q.sw q.xid = some r ↔ s.responsesCache.get q.sw = some rcache := by
  unfold lookup
  constructor
  · intro hlookup
    obtain ⟨current, hcurrent, hget⟩ := Option.bind_eq_some_iff.1 hlookup
    obtain ⟨q', hq', -, hentered⟩ := h.entry current q.xid r hget
    obtain rfl := Option.some.inj (hq.symm.trans hq')
    obtain rfl := Option.some.inj ((entered_of_listed hlisted).symm.trans hentered)
    exact hcurrent
  · intro hcurrent
    rw [hcurrent]
    exact (h.request r q hq).listed rcache hlisted

theorem lookup_eq_none (h : s.Valid) (hq : s.requests.get r = some q) (hentered : q.phase.entered = some rcache)
    (hne : s.responsesCache.get q.sw ≠ some rcache) : s.lookup q.sw q.xid = none := by
  refine Option.eq_none_iff_forall_not_mem.2 fun r' hlookup => hne ?_
  obtain ⟨current, hcurrent, hget⟩ := Option.bind_eq_some_iff.1 hlookup
  obtain ⟨q', hq', hxid, hentered'⟩ := h.entry current q.xid r' hget
  obtain rfl := h.distinct r r' q q' hq hq' hxid.symm
  obtain rfl := Option.some.inj (hq.symm.trans hq')
  obtain rfl := Option.some.inj (hentered.symm.trans hentered')
  exact hcurrent

theorem entered_atCheck (hat : AtCheck q rcache) : q.phase.listed = some rcache := by rw [hat.2]; rfl

theorem entered_atWrite (hat : AtWrite q rcache) : q.phase.listed = some rcache := by
  obtain ⟨-, hphase⟩ | ⟨-, hphase⟩ := hat <;> rw [hphase] <;> rfl

end Lookup

/-- One request goes on: what is to be shown of it, and of the others. -/
theorem Delivers.goes (h : s.Delivers) (hgoes : Goes s s') (hrequests : s'.requests = (s.move r q p).requests)
    (hdeliveries : s'.deliveries = s.deliveries) (hresponses : s'.responses = s.responses)
    (hwaits : ∀ r' sw xid, r' ≠ r → s.Waits sw xid r' → s'.lookup sw xid = some r')
    (hover : ∀ r' q' rcache, r' ≠ r → s.requests.get r' = some q' → q'.phase = .ended rcache →
      s'.lookup q'.sw q'.xid = none)
    (hwaiting : ∀ rcache, p = .waiting rcache → s'.lookup q.sw q.xid = some r)
    (hgone : ∀ rcache, p = .ended rcache → s'.lookup q.sw q.xid = none) : s'.Delivers where
  waiting r' sw xid hw := by
    obtain ⟨q', hq', rfl, rfl, rcache, hphase⟩ := hw
    rw [hrequests] at hq'
    have hq' := (get_move s r q p r').symm.trans hq'
    split_ifs at hq' with hr
    · obtain rfl := Option.some.inj hq'
      rw [hr]
      exact hwaiting rcache hphase
    · exact hwaits r' q'.sw q'.xid hr ⟨q', hq', rfl, rfl, rcache, hphase⟩
  ended r' q' rcache hq' hphase := by
    rw [hrequests, get_move] at hq'
    split_ifs at hq' with hr
    · obtain rfl := Option.some.inj hq'
      exact hgone rcache hphase
    · exact hover r' q' rcache hr hq' hphase
  underway d reply rcache r' hd := by
    rw [hdeliveries] at hd
    obtain ⟨q', hq', hxid, hentered⟩ := h.underway d reply rcache r' hd
    obtain ⟨q'', hq'', -, hxid', -, hentered'⟩ := hgoes.request r' q' hq'
    exact ⟨q'', hq'', hxid'.trans hxid, hentered' rcache hentered⟩
  found d reply response r' hd := by
    rw [hdeliveries] at hd
    exact h.found d reply response r' hd
  mine r' reply hmem := by
    rw [hresponses] at hmem
    exact hgoes.same (h.mine r' reply hmem)

theorem goes_advance (hq : s.requests.get r = some q) {a : ResponseStep} (ha : s.Advances r q a p) :
    Goes s (s.move r q p) := by
  cases ha with
  | hold hphase => exact goes_move hq (fun _ => rfl) (by simp [hphase, entered])
  | create hphase => exact goes_move hq (by simp [hphase, hasMap]) (by simp [hphase, entered])
  | check hat => exact goes_move hq (fun _ => rfl) (by simp [hat.2, entered])
  | leave hat => exact goes_move hq (fun _ => rfl) (by simp [hat.2, entered])
  | send hat => obtain ⟨-, hphase⟩ | ⟨-, hphase⟩ := hat <;> exact goes_move hq (fun _ => rfl) (by simp [hphase, entered])
  | throw hat => obtain ⟨-, hphase⟩ | ⟨-, hphase⟩ := hat <;> exact goes_move hq (fun _ => rfl) (by simp [hphase, entered])
  | wake hphase => exact goes_move hq (fun _ => rfl) (by simp [hphase, entered])
  | getRemoved hphase => exact goes_move hq (fun _ => rfl) (by simp [hphase, entered])
  | gone hphase => exact goes_move hq (fun _ => rfl) (by simp [hphase, entered])

theorem delivers_advance (hv : s.Valid) (h : s.Delivers) (hq : s.requests.get r = some q) {a : ResponseStep}
    (ha : s.Advances r q a p) (hgood : ¬s.Loses a) : (s.move r q p).Delivers := by
  refine h.goes (goes_advance hq ha) rfl rfl rfl (fun r' sw xid _ hw => h.waiting r' sw xid hw)
    (fun r' q' rcache _ hq' hphase => h.ended r' q' rcache hq' hphase) (fun rcache hp => ?_) fun rcache hp => ?_
  · show s.lookup q.sw q.xid = some r
    cases ha with
    | send hat hconnected =>
      refine (lookup_listed hv hq (entered_atWrite hat)).2 ?_
      by_contra hne
      exact hgood ⟨q, _, hq, hat, .inl ⟨hconnected, hne⟩⟩
    | hold => cases hp
    | create => cases hp
    | check => cases hp
    | leave => cases hp
    | throw => cases hp
    | wake => cases hp
    | getRemoved => cases hp
    | gone => cases hp
  · show s.lookup q.sw q.xid = none
    cases ha with
    | leave hat hconnected =>
      exact lookup_eq_none hv hq (entered_of_listed (entered_atCheck hat)) fun hget =>
        hgood ⟨q, _, hq, hat, hconnected, hget⟩
    | throw hat hconnected =>
      exact lookup_eq_none hv hq (entered_of_listed (entered_atWrite hat)) fun hget =>
        hgood ⟨q, _, hq, hat, .inr ⟨hconnected, hget⟩⟩
    | gone hphase hnone =>
      unfold lookup
      rw [hnone]
      rfl
    | hold => cases hp
    | create => cases hp
    | check => cases hp
    | send => cases hp
    | wake => cases hp
    | getRemoved => cases hp

theorem lookup_putMap (hv : s.Valid) (hq : s.requests.get r = some q) (hphase : q.phase = .creating) (sw xid : ℕ) :
    lookup { s.move r q (.holding r) with responsesCache := s.responsesCache.put q.sw r } sw xid =
      if sw = q.sw then none else s.lookup sw xid := by
  unfold lookup
  show ((s.responsesCache.put q.sw r).get sw).bind (fun rcache => (s.rcaches rcache).get xid) = _
  rw [HashMap.get_put]
  split_ifs
  · exact hv.get_rcaches hq (by rw [hphase]; rfl) xid
  · rfl

theorem delivers_putMap (hv : s.Valid) (h : s.Delivers) (hq : s.requests.get r = some q) (hphase : q.phase = .creating)
    (hgood : ¬s.Loses (.putMap r)) :
    Delivers { s.move r q (.holding r) with responsesCache := s.responsesCache.put q.sw r } := by
  have hmove : Goes s (s.move r q (.holding r)) := goes_move hq (fun _ => rfl) (by rw [hphase]; nofun)
  refine h.goes ⟨hmove.request⟩ rfl rfl rfl (fun r' sw xid _ hw => ?_) (fun r' q' rcache _ hq' hp => ?_) nofun nofun
  · rw [lookup_putMap hv hq hphase, if_neg]
    · exact h.waiting r' sw xid hw
    · rintro rfl
      exact hgood ⟨q, hq, hphase, r', xid, hw⟩
  · rw [lookup_putMap hv hq hphase]
    split_ifs
    · rfl
    · exact h.ended r' q' rcache hq' hp

/-- What a map has for other transaction ids does not matter. -/
theorem lookup_congr {xid : ℕ} (hcache : s'.responsesCache = s.responsesCache)
    (hget : ∀ rcache, (s'.rcaches rcache).get xid = (s.rcaches rcache).get xid) (sw : ℕ) :
    s'.lookup sw xid = s.lookup sw xid := by
  unfold lookup
  rw [hcache]
  exact congrArg _ (funext hget)

theorem xid_ne_of_waits (hv : s.Valid) (hq : s.requests.get r = some q) {r' sw xid : ℕ} (hne : r' ≠ r)
    (hw : s.Waits sw xid r') : xid ≠ q.xid := by
  obtain ⟨q', hq', -, rfl, -⟩ := hw
  exact fun hxid => hne (hv.distinct r' r q' q hq' hq hxid)

theorem delivers_putItem (hv : s.Valid) (h : s.Delivers) (hq : s.requests.get r = some q)
    (hphase : q.phase = .holding rcache) : Delivers { s.move r q (.stored rcache) with
      rcaches := Function.update s.rcaches rcache ((s.rcaches rcache).put q.xid r) } := by
  have hmove : Goes s (s.move r q (.stored rcache)) := goes_move hq (fun _ => rfl) (by rw [hphase]; nofun)
  have hlookup : ∀ sw xid, xid ≠ q.xid → lookup { s.move r q (.stored rcache) with
      rcaches := Function.update s.rcaches rcache ((s.rcaches rcache).put q.xid r) } sw xid = s.lookup sw xid := by
    intro sw xid hxid
    refine lookup_congr (by rfl) (fun rcache' => ?_) sw
    show (Function.update s.rcaches rcache _ rcache').get xid = _
    by_cases hr : rcache' = rcache
    · rw [hr, Function.update_self, HashMap.get_put, if_neg hxid]
    · rw [Function.update_of_ne hr]
  refine h.goes ⟨hmove.request⟩ rfl rfl rfl (fun r' sw xid hne hw => ?_) (fun r' q' rcache' hne hq' hp => ?_) nofun nofun
  · rw [hlookup sw xid (xid_ne_of_waits hv hq hne hw)]
    exact h.waiting r' sw xid hw
  · rw [hlookup _ _ fun hxid => hne (hv.distinct r' r q' q hq' hq hxid)]
    exact h.ended r' q' rcache' hq' hp

theorem delivers_removeItem (hv : s.Valid) (h : s.Delivers) (hq : s.requests.get r = some q) {current : ℕ}
    (hphase : q.phase = .removing rcache current) : Delivers { s.move r q (.ended rcache) with
      rcaches := Function.update s.rcaches current ((s.rcaches current).remove q.xid) } := by
  have hmove : Goes s (s.move r q (.ended rcache)) := by
    refine goes_move hq (fun _ => rfl) ?_
    rw [hphase]
    exact fun _ => id
  have hlookup : ∀ sw xid, xid ≠ q.xid → lookup { s.move r q (.ended rcache) with
      rcaches := Function.update s.rcaches current ((s.rcaches current).remove q.xid) } sw xid = s.lookup sw xid := by
    intro sw xid hxid
    refine lookup_congr (by rfl) (fun rcache' => ?_) sw
    show (Function.update s.rcaches current _ rcache').get xid = _
    by_cases hr : rcache' = current
    · rw [hr, Function.update_self, HashMap.get_remove, if_neg hxid]
    · rw [Function.update_of_ne hr]
  refine h.goes ⟨hmove.request⟩ rfl rfl rfl (fun r' sw xid hne hw => ?_) (fun r' q' rcache' hne hq' hp => ?_) nofun
    fun rcache' hp => ?_
  · rw [hlookup sw xid (xid_ne_of_waits hv hq hne hw)]
    exact h.waiting r' sw xid hw
  · rw [hlookup _ _ fun hxid => hne (hv.distinct r' r q' q hq' hq hxid)]
    exact h.ended r' q' rcache' hq' hp
  · have hentered : q.phase.entered = some rcache := by rw [hphase]; rfl
    by_cases hsame : s.responsesCache.get q.sw = some rcache
    · -- the map of the switch is the one in hand, which the list has been taken out of
      obtain rfl := ((hv.request r q hq).current rcache current hphase).2 hsame
      unfold lookup
      show (s.responsesCache.get q.sw).bind (fun rcache => (Function.update s.rcaches current _ rcache).get q.xid) = none
      rw [hsame, Option.bind_some, Function.update_self, HashMap.get_remove_self]
    · have hnone := lookup_eq_none hv hq hentered hsame
      refine Option.eq_none_iff_forall_not_mem.2 fun r' hlookup => ?_
      obtain ⟨rcache', hrcache', hget⟩ := Option.bind_eq_some_iff.1 hlookup
      have hget : (Function.update s.rcaches current ((s.rcaches current).remove q.xid) rcache').get q.xid = some r' := hget
      by_cases hr : rcache' = current
      · rw [hr, Function.update_self, HashMap.get_remove_self] at hget
        cases hget
      · rw [Function.update_of_ne hr] at hget
        have hsome : s.lookup q.sw q.xid = some r' := Option.bind_eq_some_iff.2 ⟨rcache', hrcache', hget⟩
        exact absurd (hnone.symm.trans hsome) nofun

theorem delivers_call (h : s.Delivers) (kind : RequestKind) (sw xid : ℕ) (hnew : s.requests.get r = none) :
    (s.move r ⟨kind, sw, xid, .called⟩ .called).Delivers := by
  have hgoes : Goes s (s.move r ⟨kind, sw, xid, .called⟩ .called) := by
    refine ⟨fun r' q' hq' => ⟨q', ?_, rfl, rfl, id, fun _ => id⟩⟩
    rw [get_move, if_neg]
    · exact hq'
    · rintro rfl
      rw [hnew] at hq'
      cases hq'
  exact h.goes hgoes rfl rfl rfl (fun r' sw xid _ hw => h.waiting r' sw xid hw)
    (fun r' q' rcache _ hq' hp => h.ended r' q' rcache hq' hp) nofun nofun

theorem waitingFor_some {sw xid : ℕ} (h : s.waitingFor sw xid = some r) : s.Waits sw xid r := by
  have hwaits := List.find?_some h
  exact of_decide_eq_true hwaits

theorem delivers_deliver (h : s.Delivers) {reply : SwitchReply} {phase : DeliveryPhase}
    {responses : ℕ → List SwitchReply} (hmine : ∀ r reply, reply ∈ responses r →
      ∃ q, s.requests.get r = some q ∧ q.sw = reply.sw ∧ q.xid = reply.xid)
    (hunderway : ∀ rcache r, phase = .holding rcache (some r) →
      ∃ q, s.requests.get r = some q ∧ q.xid = reply.xid ∧ q.phase.entered = some rcache)
    (hfound : ∀ response r, phase = .found response (some r) → response = some r) :
    Delivers { s with responses := responses, deliveries := s.deliveries.put d (reply, phase) } := by
  have hget : ∀ d' reply' phase', (s.deliveries.put d (reply, phase)).get d' = some (reply', phase') →
      reply' = reply ∧ phase' = phase ∨ s.deliveries.get d' = some (reply', phase') := by
    intro d' reply' phase' hd'
    rw [HashMap.get_put] at hd'
    split_ifs at hd'
    · obtain ⟨rfl, rfl⟩ := Prod.mk.inj (Option.some.inj hd')
      exact .inl ⟨rfl, rfl⟩
    · exact .inr hd'
  refine ⟨h.waiting, h.ended, fun d' reply' rcache r hd' => ?_, fun d' reply' response r hd' => ?_, hmine⟩
  · obtain ⟨rfl, rfl⟩ | hd' := hget d' reply' _ hd'
    · exact hunderway rcache r rfl
    · exact h.underway d' reply' rcache r hd'
  · obtain ⟨rfl, rfl⟩ | hd' := hget d' reply' _ hd'
    · exact hfound response r rfl
    · exact h.found d' reply' response r hd'

theorem Delivers.step (hv : s.Valid) (h : s.Delivers) {a : ResponseStep} (hgood : ¬s.Loses a) :
    (step s a).Delivers := by
  have hmoves := moves_step s a
  generalize ResponseCache.step s a = s' at hmoves
  cases hmoves with
  | same => exact h
  | call kind sw xid hnew => exact delivers_call h kind sw xid hnew
  | advance hq ha => exact delivers_advance hv h hq ha hgood
  | putMap hq hphase => exact delivers_putMap hv h hq hphase hgood
  | putItem hq hphase => exact delivers_putItem hv h hq hphase
  | removeItem hq hphase => exact delivers_removeItem hv h hq hphase
  | connect => exact ⟨h.waiting, h.ended, h.underway, h.found, h.mine⟩
  | @miss d reply hnone =>
    refine delivers_deliver h h.mine nofun fun response r hphase => ?_
    obtain ⟨-, hwaits⟩ := DeliveryPhase.found.inj hphase
    have hlookup := h.waiting r _ _ (waitingFor_some hwaits)
    unfold lookup at hlookup
    rw [hnone] at hlookup
    cases hlookup
  | @arrive d rcache reply hget =>
    refine delivers_deliver h h.mine (fun rcache' r hphase => ?_) nofun
    obtain ⟨rfl, hwaits⟩ := DeliveryPhase.holding.inj hphase
    have hlookup := h.waiting r _ _ (waitingFor_some hwaits)
    unfold lookup at hlookup
    rw [hget, Option.bind_some] at hlookup
    obtain ⟨q, hq, hxid, hentered⟩ := hv.entry rcache reply.xid r hlookup
    exact ⟨q, hq, hxid, hentered⟩
  | @getItem d rcache reply waits hd =>
    refine delivers_deliver h h.mine nofun fun response r hphase => ?_
    obtain ⟨rfl, hwaits⟩ := DeliveryPhase.found.inj hphase
    obtain ⟨hsome, hr⟩ := Option.filter_eq_some_iff.1 hwaits
    obtain ⟨q, hq, -, hxid, rcache', hwaiting⟩ := of_decide_eq_true hr
    -- the request still waits, so its list is in the map that it was put in
    obtain ⟨q', hq', -, hentered⟩ := h.underway d reply rcache r (hsome ▸ hd)
    obtain rfl := Option.some.inj (hq'.symm.trans hq)
    rw [hwaiting] at hentered
    obtain rfl := Option.some.inj hentered
    rw [← hxid]
    exact (hv.request r q' hq').listed rcache' (by rw [hwaiting]; rfl)
  | @add d response reply waits hd =>
    refine delivers_deliver h (fun r reply' hmem => ?_) nofun nofun
    by_cases hr : r = response
    · subst hr
      rw [Function.update_self, List.mem_append, List.mem_singleton] at hmem
      obtain hmem | rfl := hmem
      · exact h.mine r reply' hmem
      · exact hv.delivery d reply' _ hd
    · rw [Function.update_of_ne hr] at hmem
      exact h.mine r reply' hmem

/-! ## Lost replies -/

theorem not_delivers_of_loses (hv : s.Valid) {a : ResponseStep} (hbad : s.Loses a) :
    ¬(step s a).Delivers := by
  intro h'
  cases a with
  | putMap r =>
    obtain ⟨⟨kind, sw, xid, phase⟩, hq, hphase, r', xid', hw⟩ := hbad
    obtain rfl : phase = .creating := hphase
    have hstep : step s (.putMap r) = { s.move r ⟨kind, sw, xid, .creating⟩ (.holding r) with
        responsesCache := s.responsesCache.put sw r } := by
      unfold step
      dsimp only
      rw [hq]
    have hne : r' ≠ r := by
      rintro rfl
      obtain ⟨q', hq', -, -, rcache, hp⟩ := hw
      obtain rfl := Option.some.inj (hq.symm.trans hq')
      cases hp
    rw [hstep] at h'
    obtain ⟨q', hq', rfl, rfl, rcache, hp⟩ := hw
    have hlookup := h'.waiting r' q'.sw q'.xid ⟨q', (get_move ..).trans ((if_neg hne).trans hq'), rfl, rfl, rcache, hp⟩
    rw [lookup_putMap hv hq rfl, if_pos rfl] at hlookup
    cases hlookup
  | check r =>
    obtain ⟨⟨kind, sw, xid, phase⟩, rcache, hq, ⟨hkind, hphase⟩, hconnected, hget⟩ := hbad
    obtain rfl : kind = .statistics := hkind
    obtain rfl : phase = .stored rcache := hphase
    have hstep : step s (.check r) = s.move r ⟨.statistics, sw, xid, .stored rcache⟩ (.ended rcache) := by
      have hconnected : s.connected sw = false := hconnected
      unfold step
      dsimp only
      rw [hq]
      dsimp only
      rw [hconnected]
      rfl
    rw [hstep] at h'
    have hnone := h'.ended r _ rcache ((get_move ..).trans (if_pos rfl)) rfl
    exact absurd (hnone.symm.trans ((lookup_listed hv hq rfl).2 hget)) nofun
  | write r =>
    obtain ⟨q, rcache, hq, hat, hbad⟩ := hbad
    have hstep : step s (.write r) = s.move r q (if s.connected q.sw then .waiting rcache else .ended rcache) := by
      obtain ⟨kind, sw, xid, phase⟩ := q
      unfold step
      dsimp only
      obtain ⟨hkind, hphase⟩ | ⟨hkind, hphase⟩ := hat
      · obtain rfl : kind = .statistics := hkind
        obtain rfl : phase = .checked rcache := hphase
        rw [hq]
      · obtain rfl : kind = .features := hkind
        obtain rfl : phase = .stored rcache := hphase
        rw [hq]
    have hlisted := entered_atWrite hat
    rw [hstep] at h'
    obtain ⟨hconnected, hne⟩ | ⟨hconnected, hget⟩ := hbad
    · rw [if_pos hconnected] at h'
      have hsome := h'.waiting r q.sw q.xid ⟨_, (get_move ..).trans (if_pos rfl), rfl, rfl, rcache, rfl⟩
      exact absurd ((lookup_eq_none hv hq (entered_of_listed hlisted) hne).symm.trans hsome) nofun
    · rw [if_neg (by rw [hconnected]; decide)] at h'
      have hnone := h'.ended r _ rcache ((get_move ..).trans (if_pos rfl)) rfl
      exact absurd (hnone.symm.trans ((lookup_listed hv hq hlisted).2 hget)) nofun
  | call => exact hbad
  | getMap => exact hbad
  | putItem => exact hbad
  | wake => exact hbad
  | getRemoved => exact hbad
  | removeItem => exact hbad
  | connect => exact hbad
  | arrive => exact hbad
  | getItem => exact hbad
  | add => exact hbad

theorem delivers_initial (connected : ℕ → Bool) : (initial connected).Delivers where
  waiting r sw xid hw := by
    obtain ⟨q, hq, -⟩ := hw
    cases hq
  ended _ _ _ := nofun
  underway _ _ _ _ := nofun
  found _ _ _ _ := nofun
  mine _ _ := nofun

/-- **Replies.** In all states of a run, a reply that arrives while its request waits gets to the list of that request
and to no other, and nothing is found for a request that is over, if and only if no step of the run loses a request:
by a second map for a switch, or by a look at a switch that has no connection. -/
theorem delivers_iff_clean (connected : ℕ → Bool) (steps : List ResponseStep) :
    (∀ pre post, steps = pre ++ post → (Machine.run step (initial connected) pre).Delivers) ↔
      Machine.Clean step Loses (initial connected) steps :=
  Machine.always_iff_clean (I := Valid) (fun _ a hv => hv.step a) (fun _ _ hv h hgood => h.step hv hgood)
    (fun _ _ hv _ hbad => not_delivers_of_loses hv hbad) (valid_initial connected) (delivers_initial connected)

/-- Two first requests of a switch both find no map. The second one puts its map when the first one waits, and the
reply to that one is dropped; a third request finds no connection, and its list stays in the cache. -/
def lostReply : List ResponseStep :=
  [.call 1 .statistics 5 11, .call 2 .statistics 5 12, .getMap 1, .getMap 2, .putMap 1, .putItem 1, .check 1, .write 1,
    .putMap 2, .arrive 0 ⟨5, 11, 0⟩, .getItem 0, .connect 5 false, .call 3 .statistics 5 13, .getMap 3, .putItem 3,
    .check 3]

theorem not_delivers_lostReply :
    (Machine.run step (initial fun _ => true) lostReply).deliveries.get 0 =
        some (⟨5, 11, 0⟩, .found none (some 1)) ∧
      (Machine.run step (initial fun _ => true) lostReply).lookup 5 13 = some 3 ∧
      ¬∀ (connected : ℕ → Bool) (steps : List ResponseStep), (Machine.run step (initial connected) steps).Delivers := by
  have hfound : (Machine.run step (initial fun _ => true) lostReply).deliveries.get 0 =
      some (⟨5, 11, 0⟩, .found none (some 1)) := by decide +kernel
  refine ⟨hfound, by decide +kernel, fun hall => ?_⟩
  exact absurd ((hall (fun _ => true) lostReply).found 0 _ none 1 hfound) nofun

end ResponseCache

end Torpedo
