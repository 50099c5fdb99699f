import Torpedo.DeviceManager.Device
import Torpedo.Util.Gaps

/-!
# Periods of activity

A host is observed at times that do not decrease. Its period of activity begins with the latest run of
observations that come within a timeout of each other. An attachment point compares an observation with the
last one. An entity compares it with the beginning of the period, and begins another period whenever the
timeout has passed since then, however often the host has been observed.
-/

namespace Torpedo

/-- The second time is at most the interval behind the first. -/
def Within (interval : Int) (t u : Int) : Prop := u ≤ t + interval

namespace Entity

/-- The entity after observations at the times. -/
def observe (e : Entity) (ts : List Int) : Entity := ts.foldl setLastSeenTimestamp e

/-- The period of activity begins no earlier than the latest run of observations, and with it unless the
timeout has passed since then. -/
structure Observed (ts : List Int) (e : Entity) : Prop where
  last : ts.getLast? = some e.lastSeenTimestamp
  le_last : e.activeSince ≤ e.lastSeenTimestamp
  le : ∀ a, LatestRun (Within ACTIVITY_TIMEOUT) ts a → a ≤ e.activeSince
  eq_iff : ∀ a, LatestRun (Within ACTIVITY_TIMEOUT) ts a →
    (e.activeSince = a ↔ e.lastSeenTimestamp ≤ a + ACTIVITY_TIMEOUT)

variable {ts : List Int} {t : Int} {e : Entity}

theorem activeSince_setLastSeenTimestamp (e : Entity) (t : Int) : (e.setLastSeenTimestamp t).activeSince =
    if e.activeSince + ACTIVITY_TIMEOUT < t then t else e.activeSince := rfl

theorem Observed.setLastSeenTimestamp (h : Observed ts e) (ht : e.lastSeenTimestamp ≤ t) :
    Observed (ts ++ [t]) (e.setLastSeenTimestamp t) := by
  obtain ⟨before, rfl⟩ := List.getLast?_eq_some_iff.1 h.last
  have hle := h.le_last
  have hpositive : 0 < ACTIVITY_TIMEOUT := by decide
  have hrun : ∀ a, LatestRun (Within ACTIVITY_TIMEOUT) (before ++ [e.lastSeenTimestamp] ++ [t]) a →
      t ≤ e.lastSeenTimestamp + ACTIVITY_TIMEOUT ∧
          LatestRun (Within ACTIVITY_TIMEOUT) (before ++ [e.lastSeenTimestamp]) a ∨
        e.lastSeenTimestamp + ACTIVITY_TIMEOUT < t ∧ a = t := by
    intro a ha
    rw [List.append_assoc] at ha
    by_cases hclose : Within ACTIVITY_TIMEOUT e.lastSeenTimestamp t
    · exact .inl ⟨hclose, (latestRun_of_close hclose).1 ha⟩
    · exact .inr ⟨not_le.1 hclose, (latestRun_of_not_close hclose).1 ha⟩
  refine ⟨by simp [Entity.setLastSeenTimestamp], ?_, fun a ha => ?_, fun a ha => ?_⟩
  · rw [activeSince_setLastSeenTimestamp]
    show (if _ then _ else _) ≤ t
    split_ifs
    · exact le_rfl
    · exact hle.trans ht
  · rw [activeSince_setLastSeenTimestamp]
    obtain ⟨-, ha⟩ | ⟨hgap, rfl⟩ := hrun a ha
    · have hbegin := h.le a ha
      split_ifs
      · exact hbegin.trans (hle.trans ht)
      · exact hbegin
    · rw [if_pos (by omega)]
  · rw [activeSince_setLastSeenTimestamp]
    show _ ↔ t ≤ a + ACTIVITY_TIMEOUT
    obtain ⟨-, ha⟩ | ⟨hgap, rfl⟩ := hrun a ha
    · -- the run goes on, and the period with it as long as it began with the run and the timeout has not passed
      have hbegin := h.le a ha
      have hiff := h.eq_iff a ha
      split_ifs <;> omega
    · rw [if_pos (by omega)]
      simp only [true_iff]
      omega

theorem Observed.observe (h : Observed ts e) {us : List Int}
    (hus : (e.lastSeenTimestamp :: us).Pairwise (· ≤ ·)) : Observed (ts ++ us) (e.observe us) := by
  induction us generalizing ts e with
  | nil =>
    rw [List.append_nil]
    exact h
  | cons u us ih =>
    obtain ⟨hle, hrest⟩ := List.pairwise_cons.1 hus
    have hstep := h.setLastSeenTimestamp (hle u List.mem_cons_self)
    rw [List.append_cons]
    exact ih hstep hrest

end Entity

namespace AttachmentPoint

/-- The attachment point after sightings at the times. -/
def see (ap : AttachmentPoint) (ts : List Int) : AttachmentPoint := ts.foldl setLastSeen ap

/-- The attachment point is active since the latest run of sightings began. -/
structure Seen (ts : List Int) (ap : AttachmentPoint) : Prop where
  last : ts.getLast? = some ap.lastSeen
  since : LatestRun (Within INACTIVITY_INTERVAL) ts ap.activeSince

variable {ts : List Int} {t : Int} {ap : AttachmentPoint}

theorem Seen.setLastSeen (h : Seen ts ap) (ht : ap.lastSeen ≤ t) : Seen (ts ++ [t]) (ap.setLastSeen t) := by
  obtain ⟨before, rfl⟩ := List.getLast?_eq_some_iff.1 h.last
  have hlast : (ap.setLastSeen t).lastSeen = t := by
    show (if ap.lastSeen < t then t else ap.lastSeen) = t
    split_ifs <;> omega
  refine ⟨by simp [hlast], ?_⟩
  show LatestRun _ (before ++ [ap.lastSeen] ++ [t])
    (if ap.lastSeen + INACTIVITY_INTERVAL < t then t else ap.activeSince)
  rw [List.append_assoc]
  split_ifs with hgap
  · have hfar : ¬Within INACTIVITY_INTERVAL ap.lastSeen t := not_le.2 hgap
    exact (latestRun_of_not_close hfar).2 rfl
  · have hclose : Within INACTIVITY_INTERVAL ap.lastSeen t := not_lt.1 hgap
    exact (latestRun_of_close hclose).2 h.since

theorem Seen.see (h : Seen ts ap) {us : List Int} (hus : (ap.lastSeen :: us).Pairwise (· ≤ ·)) :
    Seen (ts ++ us) (ap.see us) := by
  induction us generalizing ts ap with
  | nil =>
    rw [List.append_nil]
    exact h
  | cons u us ih =>
    obtain ⟨hle, hrest⟩ := List.pairwise_cons.1 hus
    have hstep := h.setLastSeen (hle u List.mem_cons_self)
    have hlast : (ap.setLastSeen u).lastSeen = u := by
      have := hstep.last
      simpa [eq_comm] using this
    rw [List.append_cons]
    exact ih hstep (by rwa [hlast])

end AttachmentPoint

/-! ## The beginning of the latest run -/

section

variable (macAddress : Int64) (vlan : Option Int16) (ipv4Address : Option Int32)
variable (switchDPID : Option Dpid) (switchPort : Option OFPort)

theorem observed_observe {t : Int} {ts : List Int} (h : (t :: ts).Pairwise (· ≤ ·)) :
    Entity.Observed (t :: ts)
      ((Entity.new macAddress vlan ipv4Address switchDPID switchPort t).observe ts) := by
  have hnew : Entity.Observed [t] (Entity.new macAddress vlan ipv4Address switchDPID switchPort t) := by
    have hpositive : 0 < Entity.ACTIVITY_TIMEOUT := by decide
    refine ⟨rfl, le_rfl, fun a ha => ?_, fun a ha => ?_⟩
    · exact (latestRun_singleton.1 ha).le
    · obtain rfl := latestRun_singleton.1 ha
      simp only [Entity.new, true_iff]
      omega
  simpa using hnew.observe h

/-- An attachment point is active since its latest run of sightings began. An entity is active since its
latest run of observations began if and only if the last of them is within the timeout of the first. -/
theorem activeSince_latestRun_iff (ref : ℕ) (sw : Dpid) (port : OFPort) {t : Int} {ts : List Int}
    (h : (t :: ts).Pairwise (· ≤ ·)) :
    LatestRun (Within AttachmentPoint.INACTIVITY_INTERVAL) (t :: ts)
        ((⟨ref, sw, port, t, t⟩ : AttachmentPoint).see ts).activeSince ∧
      (LatestRun (Within Entity.ACTIVITY_TIMEOUT) (t :: ts)
          ((Entity.new macAddress vlan ipv4Address switchDPID switchPort t).observe ts).activeSince ↔
        ∀ a, LatestRun (Within Entity.ACTIVITY_TIMEOUT) (t :: ts) a →
          (t :: ts).getLast (List.cons_ne_nil t ts) ≤ a + Entity.ACTIVITY_TIMEOUT) := by
  have hseen : AttachmentPoint.Seen [t] ⟨ref, sw, port, t, t⟩ := ⟨rfl, latestRun_singleton.2 rfl⟩
  refine ⟨by simpa using (hseen.see h).since, ?_⟩
  have hobserved := observed_observe macAddress vlan ipv4Address switchDPID switchPort h
  have hlast := hobserved.last
  rw [List.getLast?_eq_some_getLast (List.cons_ne_nil t ts), Option.some.injEq] at hlast
  rw [hlast]
  obtain ⟨b, hb, hunique⟩ := existsUnique_latestRun (Within Entity.ACTIVITY_TIMEOUT) t ts
  constructor
  · intro hsince a ha
    rw [hunique a ha, ← hunique _ hsince]
    exact (hobserved.eq_iff _ hsince).1 rfl
  · intro hle
    rw [(hobserved.eq_iff b hb).2 (hle b hb)]
    exact hb

end

/-- The law on observations a second apart. -/
theorem activeSince_latestRun_seconds :
    LatestRun (Within AttachmentPoint.INACTIVITY_INTERVAL) [0, 1000]
        ((⟨0, 1, 1, 0, 0⟩ : AttachmentPoint).see [1000]).activeSince ∧
      (LatestRun (Within Entity.ACTIVITY_TIMEOUT) [0, 1000]
          ((Entity.new 1 none none none none 0).observe [1000]).activeSince ↔
        ∀ a, LatestRun (Within Entity.ACTIVITY_TIMEOUT) [0, 1000] a →
          ([0, 1000] : List Int).getLast (List.cons_ne_nil 0 [1000]) ≤ a + Entity.ACTIVITY_TIMEOUT) :=
  activeSince_latestRun_iff 1 none none none none 0 1 1 (by decide)

/-- A host that is observed every twenty seconds is taken to be active anew at the third observation. -/
theorem not_latestRun_activeSince : ¬∀ (t : Int) (ts : List Int), (t :: ts).Pairwise (· ≤ ·) →
    LatestRun (Within Entity.ACTIVITY_TIMEOUT) (t :: ts)
      ((Entity.new 1 none none none none t).observe ts).activeSince := by
  intro h
  have hrun : LatestRun (Within Entity.ACTIVITY_TIMEOUT) ([0] ++ [20000, 40000]) 40000 :=
    h 0 [20000, 40000] (by decide)
  rw [latestRun_of_close (by unfold Within; decide)] at hrun
  rw [show [0] ++ [20000] = [] ++ [(0 : Int), 20000] from rfl,
    latestRun_of_close (by unfold Within; decide)] at hrun
  exact absurd (latestRun_singleton.1 hrun) (by decide)

end Torpedo
