import Torpedo.StaticEntryManager.Operations

/-!
# Additions that fail

An addition that replaces an entry has lost the old one as soon as the deletion is completed, whatever fails then. A
failure of the database comes behind the flow-mod, which is not taken back. In debug mode the database is listed when
all is done, and a failure of that is one of the call.
-/

namespace Torpedo

open StaticFlowEntryStorage

namespace StaticFlowEntryManager

variable {φ τ : Type} (p : StaticFlowEntryManager φ τ)

section Conditions

variable (s : StaticFlowEntryStorage τ) (name : String) (entry : Entry) (dpid : Option String)

/-- The deletion comes to the flow-mod `w`. -/
def DeletionWrites (w : Dpid × Option φ) : Prop :=
  (s.flowModNameToDpidIndex.get name).bind (fun dpid =>
    p.written (p.around s.attempts) (some dpid) .deleteStrict (s.flowModMap.get name)) = some w

/-- The insertion comes to the flow-mod `w`. -/
def InsertionWrites (w : Dpid × Option φ) : Prop :=
  p.written (p.around s.attempts) dpid .add (some entry) = some w

/-- The flow-mod changes the flow table of its switch. -/
def ChangesFlows (w : Dpid × Option φ) : Prop := ∃ message, w.2 = some message ∧
  p.apply message (s.flowTables w.1) ≠ s.flowTables w.1

/-- An addition under a new name fails at the database behind a flow-mod that has changed something, or fails at the
listing. -/
def SpoilsNew : Prop :=
  (∃ w, p.InsertionWrites s entry dpid w ∧ withEntry p.finder (p.around s.attempts) entry s.collection = none ∧
    p.ChangesFlows s w) ∨
  ∃ w c, p.InsertionWrites s entry dpid w ∧
    withEntry p.finder (p.around s.attempts) entry s.collection = some c ∧ ¬p.Lists (p.around s.attempts) c

/-- The deletion of an old entry fails at the database behind a flow-mod that has changed something, or at the
listing; or it is completed, and the insertion fails, or its listing does when something is not as it was. -/
def SpoilsOld : Prop :=
  (∃ w, p.DeletionWrites s name w ∧ withoutEntry p.finder (p.around s.attempts) name s.collection = none ∧
    p.ChangesFlows s w) ∨
  ∃ w c, p.DeletionWrites s name w ∧ withoutEntry p.finder (p.around s.attempts) name s.collection = some c ∧
    (¬p.Lists (p.around s.attempts) c ∨
      (∀ w', ¬p.InsertionWrites (p.removed s name w c) entry dpid w') ∨
      withEntry p.finder (p.around (s.attempts + 1)) entry c = none ∨
      ∃ d w' c', dpid = some d ∧ p.InsertionWrites (p.removed s name w c) entry dpid w' ∧
        withEntry p.finder (p.around (s.attempts + 1)) entry c = some c' ∧
        ¬p.Lists (p.around (s.attempts + 1)) c' ∧
        ¬s.SameStore (p.added (p.removed s name w c) name entry d w' c'))

/-- A failure that changes something. -/
def Spoils : Prop :=
  if s.flowModMap.containsKey name then p.SpoilsOld s name entry dpid else p.SpoilsNew s entry dpid

end Conditions

variable {p} {s s' : StaticFlowEntryStorage τ} {name : String} {entry : Entry} {dpid : Option String}

theorem sameStore_attempts (s : StaticFlowEntryStorage τ) (attempts : ℕ) : s.SameStore { s with attempts } :=
  ⟨fun _ => rfl, fun _ _ => Iff.rfl, fun _ => rfl, .rfl, rfl⟩

theorem sameStore_sent_iff {w : Dpid × Option φ} {attempts : ℕ} :
    s.SameStore (p.sent w { s with attempts }) ↔ ¬p.ChangesFlows s w := by
  unfold ChangesFlows sent
  obtain ⟨id, message⟩ := w
  cases message with
  | none => exact iff_of_true (sameStore_attempts s attempts) fun ⟨_, h, _⟩ => nomatch h
  | some message =>
    constructor
    · rintro h ⟨_, hm, hchange⟩
      obtain rfl := Option.some.inj hm
      refine hchange ?_
      have hflows : Function.update s.flowTables id _ id = s.flowTables id := congrFun h.flows id
      rwa [Function.update_self] at hflows
    · intro h
      push Not at h
      refine ⟨fun _ => rfl, fun _ _ => Iff.rfl, fun _ => rfl, .rfl, ?_⟩
      show Function.update s.flowTables id _ = s.flowTables
      rw [h message rfl, Function.update_eq_self]

theorem not_sameStore_of_get (hcontains : s.flowModMap.containsKey name = true)
    (hnone : s'.flowModMap.get name = none) : ¬s.SameStore s' := by
  intro h
  have hget := h.entries name
  unfold HashMap.containsKey at hcontains
  rw [← hget, hnone] at hcontains
  cases hcontains

/-- An addition under a new name that fails. -/
theorem pushFlow_sameStore_iff (hnew : s.flowModMap.get name = none) :
    (∀ e s', p.pushFlow name entry dpid s = (.error e, s') → s.SameStore s') ↔ ¬p.SpoilsNew s entry dpid := by
  unfold SpoilsNew InsertionWrites
  obtain ⟨d, w, c, rfl, hwritten, hrest, hpush⟩ | ⟨d, w, e, rfl, hwritten, hrest, hpush⟩ |
    ⟨hwritten, e, attempts, hpush⟩ := pushFlow_eq (p := p) name entry dpid s
  · rw [hpush, hwritten, hrest]
    obtain ⟨hlists, hprint⟩ | ⟨hlists, e, hprint⟩ := printDB_eq p (p.around s.attempts)
      (p.added s name entry d w c)
    · rw [hprint]
      refine iff_of_true nofun ?_
      rintro (⟨_, _, h, _⟩ | ⟨w', c', hw, hc, hnot⟩)
      · cases h
      · obtain rfl := Option.some.inj hc
        exact hnot hlists
    · rw [hprint]
      refine iff_of_false (fun h => ?_) fun h => h (.inr ⟨w, c, rfl, rfl, hlists⟩)
      have hget := (h _ _ rfl).entries name
      rw [hnew] at hget
      simp at hget
  · rw [hpush, hwritten, hrest]
    constructor
    · rintro h (⟨w', hw, -, hchanges⟩ | ⟨_, _, _, h', _⟩)
      · obtain rfl := Option.some.inj hw
        exact sameStore_sent_iff.1 (h _ _ rfl) hchanges
      · cases h'
    · intro h e' s' heq
      obtain ⟨-, rfl⟩ := Prod.mk.inj heq
      exact sameStore_sent_iff.2 fun hchanges => h (.inl ⟨w, rfl, rfl, hchanges⟩)
  · rw [hpush, hwritten]
    refine iff_of_true ?_ ?_
    · intro e' s' heq
      obtain ⟨-, rfl⟩ := Prod.mk.inj heq
      exact sameStore_attempts s attempts
    · rintro (⟨_, h, _⟩ | ⟨_, _, h, _⟩) <;> cases h

/-- The insertion behind a completed deletion fails. -/
theorem pushFlow_removed_iff (hold : s.flowModMap.containsKey name = true) (w : Dpid × Option φ)
    (c : Option (List Entry)) :
    (∀ e s', p.pushFlow name entry dpid (p.removed s name w c) = (.error e, s') → s.SameStore s') ↔
      ¬((∀ w', ¬p.InsertionWrites (p.removed s name w c) entry dpid w') ∨
        withEntry p.finder (p.around (s.attempts + 1)) entry c = none ∨
        ∃ d w' c', dpid = some d ∧ p.InsertionWrites (p.removed s name w c) entry dpid w' ∧
          withEntry p.finder (p.around (s.attempts + 1)) entry c = some c' ∧
          ¬p.Lists (p.around (s.attempts + 1)) c' ∧
          ¬s.SameStore (p.added (p.removed s name w c) name entry d w' c')) := by
  have hpushes := pushFlow_eq (p := p) name entry dpid (p.removed s name w c)
  unfold InsertionWrites
  rw [attempts_removed, collection_removed] at hpushes
  rw [attempts_removed]
  obtain ⟨d, w', c', rfl, hwritten, hrest, hpush⟩ | ⟨d, w', e, rfl, hwritten, hrest, hpush⟩ |
    ⟨hwritten, e, attempts, hpush⟩ := hpushes
  · rw [hpush, hwritten, hrest]
    obtain ⟨hlists, hprint⟩ | ⟨hlists, e, hprint⟩ := printDB_eq p (p.around (s.attempts + 1))
      (p.added (p.removed s name w c) name entry d w' c')
    · rw [hprint]
      refine iff_of_true nofun ?_
      rintro (h | h | ⟨_, _, c'', _, _, hc, hnot, _⟩)
      · exact h w' rfl
      · cases h
      · obtain rfl := Option.some.inj hc
        exact hnot hlists
    · rw [hprint]
      constructor
      · rintro h (h' | h' | ⟨_, w'', c'', hd, hw, hc, _, hnot⟩)
        · exact h' w' rfl
        · cases h'
        · obtain rfl := Option.some.inj hd
          obtain rfl := Option.some.inj hw
          obtain rfl := Option.some.inj hc
          exact hnot (h _ _ rfl)
      · intro h e' s' heq
        obtain ⟨-, rfl⟩ := Prod.mk.inj heq
        by_contra hnot
        exact h (.inr (.inr ⟨d, w', c', rfl, rfl, rfl, hlists, hnot⟩))
  · rw [hpush]
    refine iff_of_false (fun h => ?_) fun h => h (.inr (.inl hrest))
    exact not_sameStore_of_get hold (by simp) (h _ _ rfl)
  · rw [hpush]
    refine iff_of_false (fun h => ?_) fun h => h (.inl fun w' hw' => ?_)
    · exact not_sameStore_of_get hold (by simp) (h _ _ rfl)
    · rw [hwritten] at hw'
      cases hw'

/-- An addition that fails leaves the maps, the database and the flow tables as they were, if and only if it fails
before it has changed something. -/
theorem addFlow_sameStore_iff (p : StaticFlowEntryManager φ τ) (s : StaticFlowEntryStorage τ) (name : String)
    (entry : Entry) (dpid : Option String) :
    (∀ e s', p.addFlow name entry dpid s = (.error e, s') → s.SameStore s') ↔ ¬p.Spoils s name entry dpid := by
  unfold Spoils addFlow deleteOld
  by_cases hold : s.flowModMap.containsKey name = true
  · have hdelete : (do
        let s ← Method.get
        if s.flowModMap.containsKey name then p.deleteFlow name else return () : Method _ Unit) s =
        p.deleteFlow name s := by
      rw [Method.get_bind_apply, if_pos hold]
    rw [if_pos hold]
    unfold SpoilsOld DeletionWrites
    obtain ⟨d, w, c, hdpid, hwritten, hrest, hflow⟩ | ⟨d, w, e, hdpid, hwritten, hrest, hflow⟩ |
      ⟨hwritten, e, attempts, hflow⟩ := deleteFlow_eq (p := p) name s
    · rw [hdpid, Option.bind_some, hwritten, hrest]
      rw [hflow] at hdelete
      obtain ⟨hlists, hprint⟩ | ⟨hlists, e, hprint⟩ := printDB_eq p (p.around s.attempts) (p.removed s name w c)
      · rw [hprint] at hdelete
        rw [Method.bind_ok hdelete, pushFlow_removed_iff hold w c]
        refine not_congr ⟨fun h => .inr ⟨w, c, rfl, rfl, .inr h⟩, ?_⟩
        rintro (⟨_, _, h, _⟩ | ⟨w', c', hw, hc, h⟩)
        · cases h
        · obtain rfl := Option.some.inj hw
          obtain rfl := Option.some.inj hc
          rw [collection_removed] at hlists
          exact h.resolve_left (not_not.2 hlists)
      · rw [hprint] at hdelete
        rw [Method.bind_error hdelete]
        rw [collection_removed] at hlists
        refine iff_of_false (fun h => ?_) fun h => h (.inr ⟨w, c, rfl, rfl, .inl hlists⟩)
        exact not_sameStore_of_get hold (by simp) (h _ _ rfl)
    · rw [hdpid, Option.bind_some, hwritten, hrest]
      rw [hflow] at hdelete
      rw [Method.bind_error hdelete]
      constructor
      · rintro h (⟨w', hw, -, hchanges⟩ | ⟨_, _, _, h', _⟩)
        · obtain rfl := Option.some.inj hw
          exact sameStore_sent_iff.1 (h _ _ rfl) hchanges
        · cases h'
      · intro h e' s' heq
        obtain ⟨-, rfl⟩ := Prod.mk.inj heq
        exact sameStore_sent_iff.2 fun hchanges => h (.inl ⟨w, rfl, rfl, hchanges⟩)
    · rw [hflow] at hdelete
      rw [hwritten, Method.bind_error hdelete]
      refine iff_of_true ?_ ?_
      · intro e' s' heq
        obtain ⟨-, rfl⟩ := Prod.mk.inj heq
        exact sameStore_attempts s attempts
      · rintro (⟨_, h, _⟩ | ⟨_, _, h, _⟩) <;> cases h
  · have hdelete : (do
        let s ← Method.get
        if s.flowModMap.containsKey name then p.deleteFlow name else return () : Method _ Unit) s =
        (.ok (), s) := by
      rw [Method.get_bind_apply, if_neg hold]
      rfl
    rw [if_neg hold, Method.bind_ok hdelete]
    refine pushFlow_sameStore_iff ?_
    unfold HashMap.containsKey at hold
    exact Option.not_isSome_iff_eq_none.1 hold

end StaticFlowEntryManager

/-! ## A rejected replacement -/

/-- The entry is stored. -/
def stored : StaticFlowEntryStorage (List ℤ) :=
  (byPriority fun _ => sound).step (initial (some []) fun _ => []) (.addFlow (entryOf "100"))

/-- The replacement has a priority that is no number. The old entry is gone. -/
theorem not_sameStore_rejected : ¬∀ (p : StaticFlowEntryManager (FlowModCommand × ℤ) (List ℤ))
    (s : StaticFlowEntryStorage (List ℤ)) name entry dpid e s',
    p.addFlow name entry dpid s = (.error e, s') → s.SameStore s' := by
  intro h
  have hall := h (byPriority fun _ => sound) stored "s1" (entryOf "high") (some "00:00:00:00:00:00:00:01")
  have hold : (stored.flowModMap.get "s1").isSome = true := by decide +kernel
  have hfails : ((byPriority fun _ => sound).addFlow "s1" (entryOf "high") (some "00:00:00:00:00:00:00:01") stored
    ).1.toOption.isNone = true := by decide +kernel
  have hlost : (((byPriority fun _ => sound).addFlow "s1" (entryOf "high") (some "00:00:00:00:00:00:00:01") stored
    ).2.flowModMap.get "s1").isSome = false := by decide +kernel
  cases hadd : (byPriority fun _ => sound).addFlow "s1" (entryOf "high") (some "00:00:00:00:00:00:00:01") stored with
  | mk r s' =>
    rw [hadd] at hall hfails hlost
    cases r with
    | ok a => cases hfails
    | error e =>
      rw [(hall e s' rfl).entries "s1", hold] at hlost
      cases hlost

end Torpedo
