import Torpedo.Util.Collections
import Torpedo.Util.Runs

/-!
# The response cache

The requests of `getSwitchStatistics` and `getFeaturesReply` leave a list in the cache of `OFProtocol`, and wait for the
replies that other threads add to it. The cache has a map for each switch, which the first request makes; a map goes by
the request that has made it, and so does a list. Each operation on a map is one step of its thread, and each look at
the connection of the switch.
-/

namespace Torpedo

inductive RequestKind
  | statistics | features
deriving DecidableEq, Repr

/-- How far a request has come. Behind `holding` it still knows the map that it has in hand. -/
inductive RequestPhase
  | called
  /-- `responsesCache.get` has returned null, and there is a new map. -/
  | creating
  | holding (rcache : ℕ)
  /-- The list is in the map. -/
  | stored (rcache : ℕ)
  /-- The switch has been seen to have a connection. -/
  | checked (rcache : ℕ)
  /-- The request is written. -/
  | waiting (rcache : ℕ)
  /-- The reply has come, or there was none for a second. -/
  | woken (rcache : ℕ)
  /-- `removeResponseCacheItem` has a map in hand. -/
  | removing (rcache current : ℕ)
  /-- It has returned, or it has thrown because the connection is null. -/
  | ended (rcache : ℕ)
deriving DecidableEq

structure SwitchRequest where
  kind : RequestKind
  sw : ℕ
  xid : ℕ
  phase : RequestPhase
deriving DecidableEq

structure SwitchReply where
  sw : ℕ
  xid : ℕ
  body : ℕ
deriving DecidableEq

/-- How far `deliverSwitchStatistics` or `deliverFeaturesReply` has come with a reply. The request that waits for the
reply is noted down, as long as it waits. -/
inductive DeliveryPhase
  | holding (rcache : ℕ) (waits : Option ℕ)
  | found (response : Option ℕ) (waits : Option ℕ)
  | added (response : ℕ)
deriving DecidableEq

structure ResponseCache where
  /-- The switches that have a connection. -/
  connected : ℕ → Bool
  responsesCache : HashMap ℕ ℕ
  rcaches : ℕ → HashMap ℕ ℕ
  requests : HashMap ℕ SwitchRequest
  responses : ℕ → List SwitchReply
  deliveries : HashMap ℕ (SwitchReply × DeliveryPhase)

inductive ResponseStep
  | call (r : ℕ) (kind : RequestKind) (sw xid : ℕ)
  /-- `responsesCache.get` of `setResponseCacheItem`. -/
  | getMap (r : ℕ)
  | putMap (r : ℕ)
  | putItem (r : ℕ)
  /-- `getSwitchStatistics` looks whether there is a connection. -/
  | check (r : ℕ)
  | write (r : ℕ)
  | wake (r : ℕ)
  /-- `responsesCache.get` of `removeResponseCacheItem`. -/
  | getRemoved (r : ℕ)
  | removeItem (r : ℕ)
  | connect (sw : ℕ) (connected : Bool)
  /-- A reply arrives: `responsesCache.get` of `getResponseCacheItem`. -/
  | arrive (d : ℕ) (reply : SwitchReply)
  | getItem (d : ℕ)
  | add (d : ℕ)

namespace ResponseCache

variable (s : ResponseCache)

def initial (connected : ℕ → Bool) : ResponseCache := ⟨connected, ∅, fun _ => ∅, ∅, fun _ => [], ∅⟩

/-- `getResponseCacheItem`, if nothing comes between. -/
def lookup (sw xid : ℕ) : Option ℕ := (s.responsesCache.get sw).bind fun rcache => (s.rcaches rcache).get xid

/-- The request waits for replies with this transaction id. -/
def Waits (sw xid r : ℕ) : Prop :=
  ∃ q ∈ s.requests.get r, q.sw = sw ∧ q.xid = xid ∧ ∃ rcache, q.phase = .waiting rcache

instance (p : RequestPhase) : Decidable (∃ rcache, p = .waiting rcache) :=
  match p with
  | .waiting rcache => .isTrue ⟨rcache, rfl⟩
  | .called => .isFalse nofun
  | .creating => .isFalse nofun
  | .holding _ => .isFalse nofun
  | .stored _ => .isFalse nofun
  | .checked _ => .isFalse nofun
  | .woken _ => .isFalse nofun
  | .removing _ _ => .isFalse nofun
  | .ended _ => .isFalse nofun

instance (sw xid r : ℕ) : Decidable (s.Waits sw xid r) :=
  inferInstanceAs (Decidable (∃ q ∈ s.requests.get r, _))

def waitingFor (sw xid : ℕ) : Option ℕ := s.requests.keySet.find? fun r => s.Waits sw xid r

def move (r : ℕ) (q : SwitchRequest) (phase : RequestPhase) : ResponseCache :=
  { s with requests := s.requests.put r { q with phase } }

def step (s : ResponseCache) : ResponseStep → ResponseCache
  | .call r kind sw xid =>
    -- the transaction ids are distinct
    if s.requests.containsKey r ∨ ∃ r' ∈ s.requests.keySet, (s.requests.get r').map SwitchRequest.xid = some xid then s
    else s.move r ⟨kind, sw, xid, .called⟩ .called
  | .getMap r =>
    match s.requests.get r with
    | some ⟨kind, sw, xid, .called⟩ =>
      match s.responsesCache.get sw with
      | some rcache => s.move r ⟨kind, sw, xid, .called⟩ (.holding rcache)
      | none => s.move r ⟨kind, sw, xid, .called⟩ .creating
    | _ => s
  | .putMap r =>
    match s.requests.get r with
    | some ⟨kind, sw, xid, .creating⟩ =>
      { s.move r ⟨kind, sw, xid, .creating⟩ (.holding r) with responsesCache := s.responsesCache.put sw r }
    | _ => s
  | .putItem r =>
    match s.requests.get r with
    | some ⟨kind, sw, xid, .holding rcache⟩ =>
      { s.move r ⟨kind, sw, xid, .holding rcache⟩ (.stored rcache) with
        rcaches := Function.update s.rcaches rcache ((s.rcaches rcache).put xid r) }
    | _ => s
  | .check r =>
    match s.requests.get r with
    | some ⟨.statistics, sw, xid, .stored rcache⟩ =>
      -- null is returned where there is no connection
      s.move r ⟨.statistics, sw, xid, .stored rcache⟩ (if s.connected sw then .checked rcache else .ended rcache)
    | _ => s
  | .write r =>
    match s.requests.get r with
    | some ⟨.statistics, sw, xid, .checked rcache⟩ =>
      s.move r ⟨.statistics, sw, xid, .checked rcache⟩ (if s.connected sw then .waiting rcache else .ended rcache)
    | some ⟨.features, sw, xid, .stored rcache⟩ =>
      s.move r ⟨.features, sw, xid, .stored rcache⟩ (if s.connected sw then .waiting rcache else .ended rcache)
    | _ => s
  | .wake r =>
    match s.requests.get r with
    | some ⟨kind, sw, xid, .waiting rcache⟩ => s.move r ⟨kind, sw, xid, .waiting rcache⟩ (.woken rcache)
    | _ => s
  | .getRemoved r =>
    match s.requests.get r with
    | some ⟨kind, sw, xid, .woken rcache⟩ =>
      match s.responsesCache.get sw with
      | some current => s.move r ⟨kind, sw, xid, .woken rcache⟩ (.removing rcache current)
      | none => s.move r ⟨kind, sw, xid, .woken rcache⟩ (.ended rcache)
    | _ => s
  | .removeItem r =>
    match s.requests.get r with
    | some ⟨kind, sw, xid, .removing rcache current⟩ =>
      { s.move r ⟨kind, sw, xid, .removing rcache current⟩ (.ended rcache) with
        rcaches := Function.update s.rcaches current ((s.rcaches current).remove xid) }
    | _ => s
  | .connect sw connected => { s with connected := Function.update s.connected sw connected }
  | .arrive d reply =>
    if s.deliveries.containsKey d then s
    else
      match s.responsesCache.get reply.sw with
      | none => { s with deliveries := s.deliveries.put d (reply, .found none (s.waitingFor reply.sw reply.xid)) }
      | some rcache =>
        { s with deliveries := s.deliveries.put d (reply, .holding rcache (s.waitingFor reply.sw reply.xid)) }
  | .getItem d =>
    match s.deliveries.get d with
    | some (reply, .holding rcache waits) =>
      { s with
        deliveries := s.deliveries.put d
          (reply, .found ((s.rcaches rcache).get reply.xid) (waits.filter fun r => s.Waits reply.sw reply.xid r)) }
    | _ => s
  | .add d =>
    match s.deliveries.get d with
    | some (reply, .found (some response) _) =>
      { s with
        responses := Function.update s.responses response (s.responses response ++ [reply])
        deliveries := s.deliveries.put d (reply, .added response) }
    | _ => s

end ResponseCache

end Torpedo
