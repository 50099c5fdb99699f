import Torpedo.Topology.Routing

/-!
# Cached routes

A route that is cached is the one that would be built. A request keeps it so, and changes nothing else, whatever
has been dropped from the cache.
-/

namespace Torpedo

namespace TopologyInstance

/-- The route that would be built, in as many rounds as there are switches. -/
def route (t : TopologyInstance) (srcId dstId : Dpid) : Outcome (Option Route) :=
  t.buildroute t.switches.length ⟨srcId, dstId⟩ srcId dstId

/-- A request for a route. -/
def request (t : TopologyInstance) (srcId dstId : Dpid) : Outcome (Option Route × TopologyInstance) :=
  t.getRoute t.switches.length srcId dstId

/-- The cached routes are those that would be built. -/
def Cached (t : TopologyInstance) : Prop :=
  ∀ id result, (id, result) ∈ t.pathcache → t.route id.src id.dst = .returned result

/-- The instances differ only in what they have cached. -/
def SameButCache (t t' : TopologyInstance) : Prop := t' = { t with pathcache := t'.pathcache }

variable {t t' : TopologyInstance}

theorem SameButCache.refl (t : TopologyInstance) : SameButCache t t := rfl

theorem SameButCache.trans {t'' : TopologyInstance} (h : SameButCache t t') (h' : SameButCache t' t'') :
    SameButCache t t'' := by
  unfold SameButCache at h h' ⊢
  rw [h', h]

theorem SameButCache.route_eq (h : SameButCache t t') : t'.route = t.route := by
  rw [h]
  rfl

theorem sameButCache_cachePut (t : TopologyInstance) (id : RouteId) (result : Option Route) :
    SameButCache t (t.cachePut id result) := rfl

/-- The cached routes are those that would be built in a number of rounds. -/
def CachedIn (fuel : ℕ) (t : TopologyInstance) : Prop :=
  ∀ id result, (id, result) ∈ t.pathcache → t.buildroute fuel id id.src id.dst = .returned result

theorem cached_iff : t.Cached ↔ t.CachedIn t.switches.length := Iff.rfl

theorem SameButCache.buildroute_eq (h : SameButCache t t') : t'.buildroute = t.buildroute := by
  funext fuel id srcId dstId
  rw [h]
  rfl

theorem CachedIn.cachePut {fuel : ℕ} (h : t.CachedIn fuel) {id : RouteId} {result : Option Route}
    (hroute : t.buildroute fuel id id.src id.dst = .returned result) :
    (t.cachePut id result).CachedIn fuel := by
  intro id' result' hmem
  rw [(sameButCache_cachePut t id result).buildroute_eq]
  have hentry : (id', result') ∈ t.pathcache.filter (·.1 ≠ id) ++ [(id, result)] := by
    unfold TopologyInstance.cachePut at hmem
    dsimp only at hmem
    split_ifs at hmem
    · exact List.mem_of_mem_tail hmem
    · exact hmem
  obtain hold | hnew := List.mem_append.1 hentry
  · exact h id' result' (List.mem_filter.1 hold).1
  · obtain ⟨rfl, rfl⟩ := Prod.mk.inj (List.mem_singleton.1 hnew)
    exact hroute

/-- Whether a route is cached or not, a request builds it, and then it is cached. -/
theorem CachedIn.getRoute_eq {fuel : ℕ} (h : t.CachedIn fuel) (srcId dstId : Dpid) :
    t.getRoute fuel srcId dstId =
      match t.buildroute fuel ⟨srcId, dstId⟩ srcId dstId with
      | .returned result => .returned (result, t.cachePut ⟨srcId, dstId⟩ result)
      | .nullPointer => .nullPointer
      | .running => .running := by
  unfold getRoute
  dsimp only
  cases hfind : t.pathcache.find? (·.1 = (⟨srcId, dstId⟩ : RouteId)) with
  | none => rfl
  | some entry =>
    obtain ⟨id, result⟩ := entry
    obtain rfl : id = ⟨srcId, dstId⟩ := by simpa using List.find?_some hfind
    rw [h _ _ (List.mem_of_find?_eq_some hfind)]

/-- A request is answered with the route that would be built. -/
theorem Cached.request_returned (h : t.Cached) {srcId dstId : Dpid} {result : Option Route}
    (hroute : t.route srcId dstId = .returned result) :
    ∃ t', t.request srcId dstId = .returned (result, t') ∧ SameButCache t t' ∧ t'.Cached := by
  unfold route at hroute
  have hget := (cached_iff.1 h).getRoute_eq srcId dstId
  rw [hroute] at hget
  exact ⟨_, hget, sameButCache_cachePut t _ _, (cached_iff.1 h).cachePut hroute⟩

/-- A request that is not answered is for a route that cannot be built. -/
theorem Cached.request_eq (h : t.Cached) {srcId dstId : Dpid} :
    (t.route srcId dstId = .nullPointer → t.request srcId dstId = .nullPointer) ∧
      (t.route srcId dstId = .running → t.request srcId dstId = .running) := by
  have hget := (cached_iff.1 h).getRoute_eq srcId dstId
  unfold route request
  constructor <;>
  · intro hroute
    rw [hget, hroute]

theorem pathcache_compute {ord : HashOrder} {queue : NodeQueue} (h : t.compute ord queue = some t') :
    t'.pathcache = [] := by
  -- the trees of the routes come with an empty cache, and what is computed after them leaves it
  obtain ⟨t₁, -, h⟩ := Option.bind_eq_some_iff.1 h
  obtain ⟨t₂, -, h⟩ := Option.bind_eq_some_iff.1 h
  obtain ⟨t₃, h₃, h⟩ := Option.bind_eq_some_iff.1 h
  obtain ⟨trees, -, h₃⟩ := Option.bind_eq_some_iff.1 h₃
  obtain rfl := Option.some.inj h₃
  obtain ⟨t₄, h₄, h⟩ := Option.bind_eq_some_iff.1 h
  obtain ⟨broadcastTrees, -, h₄⟩ := Option.bind_eq_some_iff.1 h₄
  obtain rfl := Option.some.inj h₄
  obtain ⟨nodePorts, -, h⟩ := Option.bind_eq_some_iff.1 h
  obtain rfl := Option.some.inj h
  rfl

theorem cached_compute {ord : HashOrder} {queue : NodeQueue} (h : t.compute ord queue = some t') : t'.Cached := by
  intro id result hmem
  rw [pathcache_compute h] at hmem
  cases hmem

end TopologyInstance

end Torpedo
