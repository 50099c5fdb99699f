import Torpedo.Topology.RouteCache
import Torpedo.Topology.Routes

/-!
# Sequences of requests

Any calls of `getRoute` on an instance leave it with a cache of routes that it would build itself, of which there
are no more than the cache may hold. So the cache is not seen from outside: each call ends as it would without.
-/

namespace Torpedo

/-- A call of one of the methods `getRoute`. -/
inductive RouteCall
  | switches (srcId dstId : Dpid)
  | ports (srcId : Dpid) (srcPort : OFPort) (dstId : Dpid) (dstPort : OFPort)

namespace TopologyInstance

variable {t t' : TopologyInstance} {fuel : ℕ}

/-- What a call ends with, and the instance after it. -/
def serve (fuel : ℕ) (t : TopologyInstance) (call : RouteCall) : Outcome (Option Route) × TopologyInstance :=
  let outcome := match call with
    | .switches srcId dstId => t.getRoute fuel srcId dstId
    | .ports srcId srcPort dstId dstPort => t.getPortRoute fuel srcId srcPort dstId dstPort
  match outcome with
  | .returned (result, t) => (.returned result, t)
  -- nothing is put into the cache
  | .nullPointer => (.nullPointer, t)
  | .running => (.running, t)

/-- The instance after some calls. -/
def serveAll (fuel : ℕ) (t : TopologyInstance) (calls : List RouteCall) : TopologyInstance :=
  calls.foldl (fun t call => (t.serve fuel call).2) t

/-- An instance has cached some of the routes that another would build, and no more than the cache may hold. -/
structure Remembers (fuel : ℕ) (t t' : TopologyInstance) : Prop where
  same : SameButCache t t'
  cached : t'.CachedIn fuel
  length : t'.pathcache.length ≤ PATH_CACHE_SIZE

theorem Remembers.cachePut (h : Remembers fuel t t') {id : RouteId} {result : Option Route}
    (hroute : t'.buildroute fuel id id.src id.dst = .returned result) :
    Remembers fuel t (t'.cachePut id result) where
  same := h.same.trans (sameButCache_cachePut t' id result)
  cached := h.cached.cachePut hroute
  length := by
    unfold TopologyInstance.cachePut
    dsimp only
    have hfilter := List.length_filter_le (fun entry => entry.1 ≠ id) t'.pathcache
    have hlength := h.length
    split_ifs with hfull
    · rw [List.length_tail, List.length_append, List.length_singleton]
      omega
    · exact not_lt.1 hfull

/-- A call leaves the cache as it should be. -/
theorem Remembers.serve (h : Remembers fuel t t') (call : RouteCall) :
    Remembers fuel t (t'.serve fuel call).2 := by
  cases call with
  | switches srcId dstId =>
    unfold TopologyInstance.serve
    dsimp only
    rw [h.cached.getRoute_eq]
    cases hroute : t'.buildroute fuel ⟨srcId, dstId⟩ srcId dstId with
    | returned result => exact h.cachePut hroute
    | nullPointer => exact h
    | running => exact h
  | ports srcId srcPort dstId dstPort =>
    unfold TopologyInstance.serve getPortRoute
    dsimp only
    by_cases hsame : srcId = dstId ∧ srcPort = dstPort
    · rw [if_pos hsame]
      exact h
    rw [if_neg hsame, h.cached.getRoute_eq]
    cases hroute : t'.buildroute fuel ⟨srcId, dstId⟩ srcId dstId with
    | returned result =>
      dsimp only
      split_ifs <;> exact h.cachePut hroute
    | nullPointer => exact h
    | running => exact h

theorem Remembers.serveAll (h : Remembers fuel t t') (calls : List RouteCall) :
    Remembers fuel t (t'.serveAll fuel calls) := by
  induction calls generalizing t' with
  | nil => exact h
  | cons call calls ih => exact ih (h.serve call)

/-- After any calls on an instance that has been computed, the next call ends as a fresh `buildroute` does, and
the cache holds no more routes than it may. -/
theorem getRoute_eq_buildroute (ord : HashOrder) (queue : NodeQueue) (t₀ t : TopologyInstance)
    (ht : t₀.compute ord queue = some t) (fuel : ℕ) (calls : List RouteCall) :
    (∀ srcId dstId, ((t.serveAll fuel calls).serve fuel (.switches srcId dstId)).1 =
        t.buildroute fuel ⟨srcId, dstId⟩ srcId dstId) ∧
      (t.serveAll fuel calls).pathcache.length ≤ PATH_CACHE_SIZE := by
  have hempty := pathcache_compute ht
  have hnew : Remembers fuel t t := by
    refine ⟨.refl t, fun id result hmem => ?_, ?_⟩
    · rw [hempty] at hmem
      cases hmem
    · rw [hempty]
      exact Nat.zero_le _
  have h := hnew.serveAll calls
  refine ⟨fun srcId dstId => ?_, h.length⟩
  unfold serve
  dsimp only
  rw [h.cached.getRoute_eq, h.same.buildroute_eq]
  cases t.buildroute fuel ⟨srcId, dstId⟩ srcId dstId <;> rfl

theorem getRoute_eq_buildroute_tunnelPair :
    ∃ t, tunnelPair.compute .insertion (.following []) = some t ∧
      (∀ srcId dstId, ((t.serveAll 3 [.switches 1 3, .ports 1 7 3 8]).serve 3 (.switches srcId dstId)).1 =
        t.buildroute 3 ⟨srcId, dstId⟩ srcId dstId) ∧
      (t.serveAll 3 [.switches 1 3, .ports 1 7 3 8]).pathcache.length ≤ PATH_CACHE_SIZE := by
  obtain ⟨t, h, -⟩ := compute_spec .insertion (.following []) indexed_ofLinks.filed new_ofLinks
    (t := tunnelPair)
  exact ⟨t, h, getRoute_eq_buildroute .insertion (.following []) tunnelPair t h 3
    [.switches 1 3, .ports 1 7 3 8]⟩

end TopologyInstance

end Torpedo
