import Torpedo.LinkDiscovery.Link
import Torpedo.Util.Collections
import Torpedo.Util.Runs

/-!
# Broadcast hits

A switch counts for each port the broadcasts that come again within the interval of its `TimedCache`. The
number of a port is boxed, and what is incremented is not written back: the number is right as long as no port
is hit a second time.
-/

namespace Torpedo

/-- `TimedCache`: when each key was seen, in milliseconds. -/
structure TimedCache (κ : Type) where
  timeoutInterval : ℤ
  cache : HashMap κ ℤ

namespace TimedCache

variable {κ : Type} [DecidableEq κ]

/-- The key is there, and not for too long. -/
def IsValid (c : TimedCache κ) (now : ℤ) (key : κ) : Prop :=
  ∃ prev, c.cache.get key = some prev ∧ now - prev ≤ c.timeoutInterval

/-- `update` at the time `now`. -/
def update (c : TimedCache κ) (now : ℤ) (key : κ) : Bool × TimedCache κ :=
  match c.cache.get key with
  | none => (false, { c with cache := c.cache.put key now })
  | some prev =>
    if now - prev > c.timeoutInterval then (false, { c with cache := c.cache.put key now }) else (true, c)

theorem update_fst_iff (c : TimedCache κ) (now : ℤ) (key : κ) :
    (c.update now key).1 = true ↔ c.IsValid now key := by
  unfold update IsValid
  cases c.cache.get key with
  | none => exact ⟨nofun, nofun⟩
  | some prev =>
    dsimp only
    split_ifs with hlong
    · refine ⟨nofun, ?_⟩
      rintro ⟨prev', hprev, hle⟩
      cases hprev
      exact absurd hlong (Int.not_lt.2 hle)
    · exact iff_of_true rfl ⟨prev, rfl, Int.not_lt.1 hlong⟩

end TimedCache

/-- What `OFSwitchImpl` knows of broadcasts. -/
structure BroadcastCache where
  timedCache : TimedCache ℤ
  portBroadcastCacheHitMap : HashMap OFPort ℤ

namespace BroadcastCache

/-- A new switch. -/
def new : BroadcastCache := ⟨⟨5 * 1000, ∅⟩, ∅⟩

/-- `updateBroadcastCache`. -/
def updateBroadcastCache (s : BroadcastCache) (now entry : ℤ) (port : OFPort) : Bool × BroadcastCache :=
  match s.timedCache.update now entry with
  | (true, timedCache) =>
    match s.portBroadcastCacheHitMap.get port with
    | none => (true, ⟨timedCache, s.portBroadcastCacheHitMap.put port 1⟩)
    -- the incremented number is a new object that is lost
    | some _ => (true, ⟨timedCache, s.portBroadcastCacheHitMap⟩)
  | (false, timedCache) => (false, ⟨timedCache, s.portBroadcastCacheHitMap⟩)

/-- The number that `getPortBroadcastHits` has for a port. -/
def hits (s : BroadcastCache) (port : OFPort) : ℤ := (s.portBroadcastCacheHitMap.get port).getD 0

end BroadcastCache

/-! ## Runs -/

/-- A switch, and how many calls for each port have returned true since the numbers were reset. -/
structure CountedBroadcasts where
  cache : BroadcastCache
  returnedTrue : OFPort → ℤ

/-- What happens to the broadcasts of a switch. -/
inductive BroadcastEvent
  | updateBroadcastCache (now entry : ℤ) (port : OFPort)
  /-- The cache has too many keys and throws one out. -/
  | evict (entry : ℤ)
  /-- The map that `getPortBroadcastHits` returns is cleared. -/
  | reset
deriving DecidableEq

namespace CountedBroadcasts

def start : CountedBroadcasts := ⟨.new, fun _ => 0⟩

def step (s : CountedBroadcasts) : BroadcastEvent → CountedBroadcasts
  | .updateBroadcastCache now entry port =>
    let (hit, cache) := s.cache.updateBroadcastCache now entry port
    ⟨cache, if hit then Function.update s.returnedTrue port (s.returnedTrue port + 1) else s.returnedTrue⟩
  | .evict entry =>
    ⟨⟨{ s.cache.timedCache with cache := s.cache.timedCache.cache.remove entry },
      s.cache.portBroadcastCacheHitMap⟩, s.returnedTrue⟩
  | .reset => ⟨{ s.cache with portBroadcastCacheHitMap := ∅ }, fun _ => 0⟩

/-- Each port has the number of its calls. -/
def Counts (s : CountedBroadcasts) : Prop := ∀ port, s.cache.hits port = s.returnedTrue port

/-- A broadcast that is still in the cache comes to a port that has been hit before. -/
def HitsAgain (s : CountedBroadcasts) : BroadcastEvent → Prop
  | .updateBroadcastCache now entry port =>
    s.cache.timedCache.IsValid now entry ∧ s.cache.portBroadcastCacheHitMap.containsKey port = true
  | _ => False

end CountedBroadcasts

namespace BroadcastCache

variable {s : BroadcastCache} {now entry : ℤ} {port : OFPort}

/-- What a call does: nothing to the numbers, the first hit of a port, or a lost one. -/
theorem updateBroadcastCache_cases (s : BroadcastCache) (now entry : ℤ) (port : OFPort) :
    (¬s.timedCache.IsValid now entry ∧ (s.updateBroadcastCache now entry port).1 = false ∧
      (s.updateBroadcastCache now entry port).2.hits = s.hits) ∨
    (s.timedCache.IsValid now entry ∧ (s.updateBroadcastCache now entry port).1 = true ∧
      s.portBroadcastCacheHitMap.get port = none ∧
      (s.updateBroadcastCache now entry port).2.hits = Function.update s.hits port 1) ∨
    (s.timedCache.IsValid now entry ∧ (s.updateBroadcastCache now entry port).1 = true ∧
      s.portBroadcastCacheHitMap.get port ≠ none ∧
      (s.updateBroadcastCache now entry port).2.hits = s.hits) := by
  rw [← TimedCache.update_fst_iff]
  unfold updateBroadcastCache
  cases hupdate : s.timedCache.update now entry with
  | mk hit timedCache =>
    cases hit with
    | false => exact .inl ⟨Bool.false_ne_true, rfl, rfl⟩
    | true =>
      cases hget : s.portBroadcastCacheHitMap.get port with
      | none =>
        refine .inr (.inl ⟨rfl, rfl, rfl, ?_⟩)
        funext port'
        unfold hits
        rw [HashMap.get_put, Function.update_apply]
        split_ifs <;> rfl
      | some n => exact .inr (.inr ⟨rfl, rfl, nofun, rfl⟩)

end BroadcastCache

namespace CountedBroadcasts

/-- An event keeps the numbers right just if it does not hit a port again. -/
theorem counts_step_iff {s : CountedBroadcasts} (hs : s.Counts) (e : BroadcastEvent) :
    (s.step e).Counts ↔ ¬s.HitsAgain e := by
  cases e with
  | evict entry => exact iff_of_true hs not_false
  | reset => exact iff_of_true (fun _ => rfl) not_false
  | updateBroadcastCache now entry port =>
    have hkey : s.cache.portBroadcastCacheHitMap.containsKey port = true ↔
        s.cache.portBroadcastCacheHitMap.get port ≠ none := by
      unfold HashMap.containsKey
      rw [Option.isSome_iff_ne_none]
    have hcounts : (s.step (.updateBroadcastCache now entry port)).Counts ↔
        ∀ port', (s.cache.updateBroadcastCache now entry port).2.hits port' =
          (if (s.cache.updateBroadcastCache now entry port).1 then
            Function.update s.returnedTrue port (s.returnedTrue port + 1) else s.returnedTrue) port' := Iff.rfl
    show _ ↔ ¬(s.cache.timedCache.IsValid now entry ∧ _)
    rw [hcounts, hkey]
    obtain ⟨hvalid, hfalse, hhits⟩ | ⟨hvalid, htrue, hnone, hhits⟩ | ⟨hvalid, htrue, hsome, hhits⟩ :=
      s.cache.updateBroadcastCache_cases now entry port
    · rw [hfalse, hhits]
      exact iff_of_true hs fun h => hvalid h.1
    · rw [htrue, hhits, if_pos rfl]
      refine iff_of_true (fun port' => ?_) fun h => h.2 hnone
      rw [Function.update_apply, Function.update_apply]
      split_ifs
      · have hzero : s.returnedTrue port = 0 := by
          rw [← hs port]
          unfold BroadcastCache.hits
          rw [hnone]
          rfl
        rw [hzero, Int.zero_add]
      · exact hs port'
    · rw [htrue, hhits, if_pos rfl]
      refine iff_of_false (fun h => ?_) fun h => h ⟨hvalid, hsome⟩
      have hport := h port
      rw [Function.update_self, hs port] at hport
      omega

/-- **Broadcast hits.** In a run of any calls the numbers are right in every state just if no broadcast that is
still in the cache comes to a port that has been hit before. -/
theorem counts_iff_clean (es : List BroadcastEvent) :
    (∀ pre post, es = pre ++ post → (Machine.run step start pre).Counts) ↔
      Machine.Clean step HitsAgain start es :=
  Machine.always_iff_clean (I := fun _ => True) (fun _ _ _ => trivial)
    (fun _ e _ hs he => (counts_step_iff hs e).2 he) (fun _ e _ hs he h => (counts_step_iff hs e).1 h he)
    trivial fun _ => rfl

/-- A broadcast that comes three times is counted once. -/
theorem not_counts_threeTimes :
    ¬∀ es : List BroadcastEvent, (Machine.run step start es).Counts := by
  intro hall
  have h := hall [.updateBroadcastCache 0 7 1, .updateBroadcastCache 1 7 1, .updateBroadcastCache 2 7 1] 1
  exact absurd h (by decide)

end CountedBroadcasts

end Torpedo
