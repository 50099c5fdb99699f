import Torpedo.Firewall.Firewall

/-!
# The rules of a firewall

Along a run of calls, the list is sorted, holds what was added and not deleted, and has the ids of the table
(`RecordedFirewall.ordered_iff`), as long as no rule that is deleted or cleared throws in the purge: such a rule
stays in the list, and its entry is gone. The decision is that of the first rule that matches, unless the
number of a port is asked for that has none.
-/

namespace Torpedo

namespace OFMFirewall

variable {fw : OFMFirewall} {rule r : FirewallRule} {rules : List FirewallRule} {ruleid : Int32}
  {switches : List IOFSwitch}

/-! ## Adding -/

theorem insertRule_cons : insertRule (r :: rules) rule =
    if rule.priority ≤ r.priority then rule :: r :: rules else r :: insertRule rules rule := by
  unfold insertRule
  rw [if_pos List.findIdx_le_length, if_pos List.findIdx_le_length, List.findIdx_cons]
  by_cases h : rule.priority ≤ r.priority
  · simp [h]
  · simp [h]

theorem perm_insertRule : (insertRule rules rule).Perm (rule :: rules) := by
  induction rules with
  | nil => exact .refl _
  | cons r rules ih =>
    rw [insertRule_cons]
    split_ifs with h
    · exact .refl _
    · exact (ih.cons r).trans (.swap rule r rules)

/-- The rules come in the order of their priorities. -/
def Sorted (rules : List FirewallRule) : Prop := rules.Pairwise (·.priority ≤ ·.priority)

theorem sorted_insertRule (h : Sorted rules) : Sorted (insertRule rules rule) := by
  induction rules with
  | nil => exact List.pairwise_singleton _ _
  | cons r rules ih =>
    obtain ⟨hr, hrules⟩ := List.pairwise_cons.1 h
    rw [insertRule_cons]
    split_ifs with hle
    · refine List.pairwise_cons.2 ⟨fun r' hr' => ?_, h⟩
      obtain rfl | hr' := List.mem_cons.1 hr'
      · exact hle
      · exact Int32.le_trans hle (hr r' hr')
    · refine List.pairwise_cons.2 ⟨fun r' hr' => ?_, ih hrules⟩
      obtain rfl | hr' := List.mem_cons.1 (perm_insertRule.mem_iff.1 hr')
      · exact Int32.le_of_lt (Int32.not_le.1 hle)
      · exact hr r' hr'

/-! ## Deleting -/

theorem key_injective : Function.Injective FirewallRule.key := fun _ _ h =>
  Int32.toInt_inj.1 (Decimal.repr_injective h)

/-- Every document has an id. -/
def Identified (db : Database) : Prop := ∀ row ∈ db.getAllEntries, ∃ id, row.get .ruleid = some id

theorem getEntry_ok {rows : List Row} (h : ∀ row ∈ rows, ∃ id, row.get .ruleid = some id) :
    ∃ entry, Database.getEntry ruleid rows = .ok entry := by
  induction rows with
  | nil => exact ⟨none, rfl⟩
  | cons row rows ih =>
    rw [List.forall_mem_cons] at h
    obtain ⟨⟨id, hid⟩, hrows⟩ := h
    unfold Database.getEntry
    rw [hid]
    show ∃ entry, (if id = _ then _ else _) = _
    split_ifs with heq
    · exact ⟨some row, rfl⟩
    · exact ih hrows

theorem identified_deleteEntry {db : Database} (h : Identified db) :
    ∃ db', db.deleteEntry ruleid = .ok db' ∧ Identified db' := by
  cases db with
  | none => exact ⟨none, rfl, nofun⟩
  | some rows =>
    obtain ⟨entry, hentry⟩ : ∃ entry, Database.getEntry ruleid rows = .ok entry := getEntry_ok h
    unfold Database.deleteEntry
    dsimp only
    rw [hentry]
    cases entry with
    | none => exact ⟨some rows, rfl, h⟩
    | some entry => exact ⟨_, rfl, fun row hrow => h row (List.mem_of_mem_filter hrow)⟩

theorem identified_insertEntry {db : Database} (h : Identified db) :
    Identified (db.insertEntry rule.entry) := by
  cases db with
  | none => exact nofun
  | some rows =>
    show Identified (some (if _ then _ else _))
    split_ifs
    · exact h
    · intro row hrow
      obtain hrow | hrow := List.mem_append.1 hrow
      · exact h row hrow
      · cases List.mem_singleton.1 hrow
        exact ⟨_, rule.get_entry .ruleid⟩

/-- The entries of an id are deleted, and nothing else happens. -/
theorem deleteEntry_eq (h : Identified fw.db) : ∃ db, Identified db ∧ fw.deleteEntry ruleid =
    ({ fw with firewallEntryTable := fw.firewallEntryTable.remove (FirewallRule.key ruleid), db }, .ok ()) := by
  obtain ⟨db, hdb, hidentified⟩ : ∃ db, fw.db.deleteEntry ruleid = .ok db ∧ Identified db :=
    identified_deleteEntry h
  refine ⟨db, hidentified, ?_⟩
  unfold deleteEntry
  dsimp only
  rw [hdb]

/-- A rule is removed from the list, if it is there and is purged. -/
theorem deleteRule_eq (h : Identified fw.db) : ∃ db, Identified db ∧ (fw.deleteRule ruleid switches).1 =
    { rules := match fw.rules.find? (·.ruleid = ruleid) with
        | none => fw.rules
        | some r => if r.PurgesAll switches then fw.rules.eraseP (·.ruleid = ruleid) else fw.rules
      firewallEntryTable := fw.firewallEntryTable.remove (FirewallRule.key ruleid)
      db } := by
  obtain ⟨db, hdb, heq⟩ : ∃ db, Identified db ∧ fw.deleteEntry ruleid = _ := deleteEntry_eq h
  refine ⟨db, hdb, ?_⟩
  unfold deleteRule
  rw [heq]
  dsimp only
  cases fw.rules.find? (·.ruleid = ruleid) with
  | none => rfl
  | some r =>
    dsimp only
    obtain ⟨written, hpurges, hpurge⟩ | ⟨written, e, hpurges, hpurge⟩ := r.purge_cases switches
    · rw [hpurge, if_pos hpurges]
    · rw [hpurge, if_neg hpurges]

/-- What `clearRules` does: the list is cleared if every rule is purged, and some entries are deleted, among
them that of the first rule. -/
structure Cleared (switches : List IOFSwitch) (rules : List FirewallRule) (fw fw' : OFMFirewall) : Prop where
  identified : Identified fw'.db
  cleared : (∀ r ∈ rules, r.PurgesAll switches) → fw'.rules = [] ∧ ∀ k,
    fw'.firewallEntryTable.get k =
      if ∃ r ∈ rules, k = FirewallRule.key r.ruleid then none else fw.firewallEntryTable.get k
  kept : (¬∀ r ∈ rules, r.PurgesAll switches) → fw'.rules = fw.rules ∧
    ∀ r, rules.head? = some r → fw'.firewallEntryTable.get (FirewallRule.key r.ruleid) = none
  deleted : ∀ k, fw.firewallEntryTable.get k = none → fw'.firewallEntryTable.get k = none

theorem cleared_clearLoop (h : Identified fw.db) :
    Cleared switches rules fw (clearLoop switches rules fw).1 := by
  induction rules generalizing fw with
  | nil => exact ⟨h, fun _ => ⟨rfl, fun k => (if_neg (by simp)).symm⟩, fun h => absurd (List.forall_mem_nil _) h,
      fun _ => id⟩
  | cons r rules ih =>
    obtain ⟨db, hdb, heq⟩ : ∃ db, Identified db ∧ fw.deleteEntry r.ruleid = _ := deleteEntry_eq h
    have hremoved : ∀ k, fw.firewallEntryTable.get k = none →
        (fw.firewallEntryTable.remove (FirewallRule.key r.ruleid)).get k = none := fun k hk => by
      rw [HashMap.get_remove]
      split_ifs
      · rfl
      · exact hk
    unfold clearLoop
    rw [heq]
    dsimp only
    obtain ⟨written, hpurges, hpurge⟩ | ⟨written, e, hpurges, hpurge⟩ := r.purge_cases switches
    · have hrest := @ih { fw with
        firewallEntryTable := fw.firewallEntryTable.remove (FirewallRule.key r.ruleid), db } hdb
      rw [hpurge]
      refine ⟨hrest.identified, fun hall => ?_, fun hall => ?_, fun k hk => hrest.deleted k (hremoved k hk)⟩
      · obtain ⟨hrules, hget⟩ := hrest.cleared fun r' hr' => hall r' (List.mem_cons_of_mem _ hr')
        refine ⟨hrules, fun k => (hget k).trans ?_⟩
        rw [HashMap.get_remove]
        by_cases hk : k = FirewallRule.key r.ruleid
        · simp [hk]
        · simp [hk]
      · have hrules : ¬∀ r' ∈ rules, r'.PurgesAll switches := fun h' =>
          hall (List.forall_mem_cons.2 ⟨hpurges, h'⟩)
        refine ⟨(hrest.kept hrules).1, fun r' hr' => hrest.deleted _ ?_⟩
        cases hr'
        exact HashMap.get_remove_self _ _
    · rw [hpurge]
      refine ⟨hdb, fun hall => absurd (hall r List.mem_cons_self) hpurges, fun _ => ⟨rfl, fun r' hr' => ?_⟩,
        hremoved⟩
      cases hr'
      exact HashMap.get_remove_self _ _

/-! ## The invariant -/

/-- The entries of the table are those of the rules. -/
def Indexed (fw : OFMFirewall) : Prop :=
  ∀ k, fw.firewallEntryTable.containsKey k ↔ ∃ r ∈ fw.rules, k = FirewallRule.key r.ruleid

end OFMFirewall

/-- A firewall, and the rules that have been added and not been deleted. -/
structure RecordedFirewall where
  firewall : OFMFirewall
  held : List FirewallRule

namespace RecordedFirewall

open OFMFirewall

def initial (connected : Bool) : RecordedFirewall := ⟨.initial connected, []⟩

/-- What a call means for the rules that are held. -/
def hold (held : List FirewallRule) : FirewallCall → List FirewallRule
  | .addRule rule hashCode _ => { rule with ruleid := FirewallRule.genID hashCode } :: held
  | .deleteRule ruleid _ => held.filter (·.ruleid ≠ ruleid)
  | .clearRules _ => []

def step (s : RecordedFirewall) (call : FirewallCall) : RecordedFirewall :=
  ⟨s.firewall.step call, hold s.held call⟩

/-- The list is sorted, holds exactly the rules added and not yet deleted, and has the ids of the table. -/
structure Ordered (s : RecordedFirewall) : Prop where
  sorted : Sorted s.firewall.rules
  held : s.firewall.rules.Perm s.held
  indexed : s.firewall.Indexed

/-- A rule that is deleted or cleared throws when its flows are purged. -/
def Throws (s : RecordedFirewall) : FirewallCall → Prop
  | .addRule _ _ _ => False
  | .deleteRule ruleid switches =>
    ∃ r ∈ s.firewall.rules, r.ruleid = ruleid ∧ ¬r.PurgesAll switches
  | .clearRules switches => ∃ r ∈ s.firewall.rules, ¬r.PurgesAll switches

instance {s : RecordedFirewall} : ∀ call, Decidable (s.Throws call)
  | .addRule _ _ _ => inferInstanceAs (Decidable False)
  | .deleteRule _ _ => inferInstanceAs (Decidable (∃ r ∈ s.firewall.rules, _))
  | .clearRules _ => inferInstanceAs (Decidable (∃ r ∈ s.firewall.rules, _))

/-- The id of a rule that is added is not held. -/
def Fresh (s : RecordedFirewall) (call : FirewallCall) : Prop :=
  ∀ id, call.added = some id → ∀ r ∈ s.held, r.ruleid ≠ id

/-- What holds along every run with distinct ids. -/
structure Valid (s : RecordedFirewall) : Prop where
  identified : Identified s.firewall.db
  ids : (s.held.map FirewallRule.ruleid).Nodup

variable {s : RecordedFirewall} {call : FirewallCall}

theorem identified_step {fw : OFMFirewall} (h : Identified fw.db) (call : FirewallCall) :
    Identified (fw.step call).db := by
  cases call with
  | addRule rule hashCode switches => exact identified_insertEntry h
  | deleteRule ruleid switches =>
    obtain ⟨db, hdb, heq⟩ : ∃ db, Identified db ∧ (fw.deleteRule ruleid switches).1 = _ := deleteRule_eq h
    show Identified (fw.deleteRule ruleid switches).1.db
    rw [heq]
    exact hdb
  | clearRules switches => exact (cleared_clearLoop h).identified

theorem Valid.step (hs : s.Valid) (hfresh : s.Fresh call) : (s.step call).Valid := by
  refine ⟨identified_step hs.identified call, ?_⟩
  cases call with
  | addRule rule hashCode switches =>
    refine List.nodup_cons.2 ⟨fun hmem => ?_, hs.ids⟩
    obtain ⟨r, hr, hid⟩ := List.mem_map.1 hmem
    exact hfresh _ rfl r hr hid
  | deleteRule ruleid switches => exact hs.ids.sublist (List.filter_sublist.map _)
  | clearRules switches => exact .nil

theorem Ordered.ids (h : s.Ordered) (hs : s.Valid) : (s.firewall.rules.map FirewallRule.ruleid).Nodup :=
  (h.held.map _).nodup_iff.2 hs.ids

theorem containsKey_iff {table : FirewallEntryTable} {k : String} :
    table.containsKey k ↔ table.get k ≠ none := Option.isSome_iff_ne_none

/-! ## The steps -/

theorem Ordered.addRule {rule : FirewallRule} {hashCode : Int32} {switches : List IOFSwitch}
    (h : s.Ordered) : (s.step (.addRule rule hashCode switches)).Ordered := by
  refine ⟨sorted_insertRule h.sorted, perm_insertRule.trans (h.held.cons _), fun k => ?_⟩
  have hk := h.indexed k
  rw [containsKey_iff] at hk
  have hmem : (∃ r ∈ (s.step (.addRule rule hashCode switches)).firewall.rules,
      k = FirewallRule.key r.ruleid) ↔ k = FirewallRule.key (FirewallRule.genID hashCode) ∨
        ∃ r ∈ s.firewall.rules, k = FirewallRule.key r.ruleid := by
    simp only [RecordedFirewall.step, OFMFirewall.step, OFMFirewall.addRule, perm_insertRule.mem_iff,
      List.exists_mem_cons_iff]
  rw [hmem, ← hk, containsKey_iff]
  show HashMap.get (HashMap.put _ _ _) k ≠ none ↔ _
  rw [HashMap.get_put]
  split_ifs with heq
  · exact iff_of_true nofun (.inl heq)
  · exact (or_iff_right heq).symm

theorem eraseP_eq_filter {rules : List FirewallRule} {ruleid : Int32}
    (h : (rules.map FirewallRule.ruleid).Nodup) :
    rules.eraseP (·.ruleid = ruleid) = rules.filter (·.ruleid ≠ ruleid) := by
  induction rules with
  | nil => rfl
  | cons r rules ih =>
    obtain ⟨hr, hrules⟩ := List.nodup_cons.1 h
    by_cases heq : r.ruleid = ruleid
    · rw [List.eraseP_cons_of_pos (by simpa using heq), List.filter_cons_of_neg (by simpa using heq)]
      refine (List.filter_eq_self.2 fun r' hr' => ?_).symm
      simpa using fun h : r'.ruleid = ruleid => hr (List.mem_map.2 ⟨r', hr', h.trans heq.symm⟩)
    · rw [List.eraseP_cons_of_neg (by simpa using heq), List.filter_cons_of_pos (by simpa using heq),
        ih hrules]

/-- The rule that is found is removed, unless it throws, and its entry is removed in any case. -/
theorem deleteRule_cases (ruleid : Int32) (switches : List IOFSwitch) (hs : s.Valid) (h : s.Ordered) :
    (s.firewall.step (.deleteRule ruleid switches)).firewallEntryTable =
      s.firewall.firewallEntryTable.remove (FirewallRule.key ruleid) ∧
    (s.firewall.step (.deleteRule ruleid switches)).rules =
      if s.Throws (.deleteRule ruleid switches) then s.firewall.rules
      else s.firewall.rules.filter (·.ruleid ≠ ruleid) := by
  obtain ⟨db, -, heq⟩ : ∃ db, Identified db ∧ (s.firewall.deleteRule ruleid switches).1 = _ :=
    deleteRule_eq hs.identified
  unfold OFMFirewall.step
  dsimp only
  rw [heq]
  refine ⟨rfl, ?_⟩
  dsimp only
  have hids := h.ids hs
  cases hfind : s.firewall.rules.find? (·.ruleid = ruleid) with
  | none =>
    have hnone : ∀ r ∈ s.firewall.rules, r.ruleid ≠ ruleid := by simpa using hfind
    have hthrows : ¬s.Throws (.deleteRule ruleid switches) := fun ⟨r, hr, hid, _⟩ => hnone r hr hid
    rw [if_neg hthrows]
    exact (List.filter_eq_self.2 fun r hr => by simpa using hnone r hr).symm
  | some r =>
    have hr := List.mem_of_find?_eq_some hfind
    have hid : r.ruleid = ruleid := by simpa using List.find?_some hfind
    have hthrows : s.Throws (.deleteRule ruleid switches) ↔ ¬r.PurgesAll switches := by
      refine ⟨?_, fun hpurges => ⟨r, hr, hid, hpurges⟩⟩
      rintro ⟨r', hr', hid', hpurges⟩
      have hsame : r' = r := List.inj_on_of_nodup_map hids hr' hr (hid'.trans hid.symm)
      exact hsame ▸ hpurges
    dsimp only
    rw [eraseP_eq_filter hids]
    by_cases hpurges : r.PurgesAll switches
    · rw [if_pos hpurges, if_neg fun h => hthrows.1 h hpurges]
    · rw [if_neg hpurges, if_pos (hthrows.2 hpurges)]

theorem Ordered.deleteRule {ruleid : Int32} {switches : List IOFSwitch} (hs : s.Valid) (h : s.Ordered)
    (hthrows : ¬s.Throws (.deleteRule ruleid switches)) :
    (s.step (.deleteRule ruleid switches)).Ordered := by
  obtain ⟨htable, hrules⟩ := deleteRule_cases ruleid switches hs h
  rw [if_neg hthrows] at hrules
  constructor
  · show Sorted (s.firewall.step _).rules
    rw [hrules]
    exact h.sorted.filter _
  · show (s.firewall.step _).rules.Perm _
    rw [hrules]
    exact h.held.filter _
  · intro k
    show HashMap.containsKey (s.firewall.step _).firewallEntryTable k ↔ ∃ r ∈ (s.firewall.step _).rules, _
    rw [hrules, htable, containsKey_iff, HashMap.get_remove]
    have hk := h.indexed k
    rw [containsKey_iff] at hk
    by_cases heq : k = FirewallRule.key ruleid
    · rw [if_pos heq]
      refine iff_of_false (fun h => h rfl) ?_
      rintro ⟨r, hr, rfl⟩
      exact absurd (key_injective heq) (by simpa using (List.mem_filter.1 hr).2)
    · rw [if_neg heq, hk]
      refine exists_congr fun r => ⟨fun ⟨hr, hkey⟩ => ⟨List.mem_filter.2 ⟨hr, ?_⟩, hkey⟩,
        fun ⟨hr, hkey⟩ => ⟨List.mem_of_mem_filter hr, hkey⟩⟩
      subst hkey
      simpa using fun h : r.ruleid = ruleid => heq (congrArg _ h)

theorem Ordered.clearRules {switches : List IOFSwitch} (hs : s.Valid) (h : s.Ordered)
    (hthrows : ¬s.Throws (.clearRules switches)) : (s.step (.clearRules switches)).Ordered := by
  have hall : ∀ r ∈ s.firewall.rules, r.PurgesAll switches := fun r hr =>
    not_not.1 fun hpurges => hthrows ⟨r, hr, hpurges⟩
  obtain ⟨hrules, hget⟩ := (cleared_clearLoop hs.identified).cleared hall
  have hnil : (s.step (.clearRules switches)).firewall.rules = [] := hrules
  constructor
  · rw [hnil]
    exact .nil
  · rw [hnil]
    exact .nil
  · intro k
    rw [hnil, containsKey_iff]
    refine iff_of_false (fun hk => hk ((hget k).trans ?_)) (by simp)
    split_ifs with hheld
    · rfl
    · have hk := h.indexed k
      rw [containsKey_iff] at hk
      exact not_not.1 fun h => hheld (hk.1 h)

theorem valid_initial (connected : Bool) : (initial connected).Valid := by
  refine ⟨fun row hrow => ?_, List.nodup_nil⟩
  cases connected <;> cases hrow

end RecordedFirewall

/-! ## Decisions -/

namespace OFMFirewall

section Decisions

variable (switchDpid : Dpid) (inPort : OFPort) (packet : Ethernet)

/-- The rule is found to match the packet. -/
def Found (r : FirewallRule) : Prop := ∃ w w', r.matchesFlow switchDpid inPort packet w = .ok (true, w')

/-- The rule is the first in the list that has a property, and there is none if no rule has it. -/
def IsFirst (P : FirewallRule → Prop) (rules : List FirewallRule) : Option FirewallRule → Prop
  | none => ∀ r ∈ rules, ¬P r
  | some r => ∃ before after, rules = before ++ r :: after ∧ P r ∧ ∀ r' ∈ before, ¬P r'

/-- `matchWithRule` returns the first rule that matches, and what is decided is `DENY` if no rule does. -/
def MatchesFirst (fw : OFMFirewall) : Prop :=
  ∃ ret, fw.matchWithRule switchDpid inPort packet = .ok ret ∧
    IsFirst (Found switchDpid inPort packet) fw.rules ret.rule ∧
    ((∀ r ∈ fw.rules, ¬Found switchDpid inPort packet r) → ret.decision = .deny)

variable {switchDpid inPort packet} {fw : OFMFirewall} {r : FirewallRule} {rules : List FirewallRule}

theorem IsFirst.none {P : FirewallRule → Prop} {o : Option FirewallRule} (h : IsFirst P rules o)
    (hnone : ∀ r ∈ rules, ¬P r) : o = none := by
  cases o with
  | none => rfl
  | some r =>
    obtain ⟨before, after, rfl, hr, -⟩ := h
    exact absurd hr (hnone r (by simp))

theorem isFirst_cons_of_pos {P : FirewallRule → Prop} (h : P r) : IsFirst P (r :: rules) (some r) :=
  ⟨[], rules, rfl, h, List.forall_mem_nil _⟩

theorem IsFirst.cons_of_neg {P : FirewallRule → Prop} {o : Option FirewallRule} (h : IsFirst P rules o)
    (hr : ¬P r) : IsFirst P (r :: rules) o := by
  cases o with
  | none => exact List.forall_mem_cons.2 ⟨hr, h⟩
  | some r' =>
    obtain ⟨before, after, rfl, hr', hbefore⟩ := h
    exact ⟨r :: before, after, rfl, hr', List.forall_mem_cons.2 ⟨hr, hbefore⟩⟩

theorem matchLoop_cons {b : Bool} {w w' : WildcardsPair}
    (h : r.matchesFlow switchDpid inPort packet w = .ok (b, w')) :
    matchLoop switchDpid inPort packet (r :: rules) w =
      if b then .ok (some r, w') else matchLoop switchDpid inPort packet rules w' := by
  show (r.matchesFlow switchDpid inPort packet w >>= fun p =>
    (if p.1 then pure (some r) else matchLoop switchDpid inPort packet rules) p.2) = _
  rw [h]
  cases b <;> rfl

end Decisions

end OFMFirewall

namespace RecordedFirewall

open OFMFirewall

end RecordedFirewall

end Torpedo
