import Torpedo.StaticEntryManager.Atomic
import Torpedo.StaticEntryManager.Restart

/-!
# Operations on all entries of a switch

The loops of `deleteFlowsForSwitch` and `deleteAllFlows` walk over sets that each deletion takes a name out of, so
they get no further than to the first. `getFlowsForSwitch` walks over the switches in place of the names, and puts
every entry that it finds under the switch.
-/

namespace Torpedo

namespace StaticFlowEntryManager

open StaticFlowEntryStorage

variable {φ τ : Type} {p : StaticFlowEntryManager φ τ} {s : StaticFlowEntryStorage τ} {name dpid : String}

/-! ## Deletions -/

/-- A single deletion of the entry is completed. -/
def Deletable (p : StaticFlowEntryManager φ τ) (s : StaticFlowEntryStorage τ) (name : String) : Prop :=
  ∃ w c, p.DeletionWrites s name w ∧ withoutEntry p.finder (p.around s.attempts) name s.collection = some c ∧
    p.Lists (p.around s.attempts) c

theorem deleteFlow_of_deletable (h : p.Deletable s name) :
    ∃ dpid w c, s.flowModNameToDpidIndex.get name = some dpid ∧ p.deleteFlow name s = (.ok (), p.removed s name w c) := by
  obtain ⟨w, c, hwrites, hrest, hlists⟩ := h
  unfold DeletionWrites at hwrites
  obtain ⟨dpid, w', c', hdpid, hwritten, hrest', heq⟩ | ⟨dpid, w', e, -, -, hnone, -⟩ | ⟨hnone, -⟩ :=
    deleteFlow_eq (p := p) name s
  · obtain rfl := Option.some.inj (hrest.symm.trans hrest')
    have hprint := printDB_eq p (p.around s.attempts) (p.removed s name w' c)
    rw [collection_removed] at hprint
    obtain ⟨-, hprint⟩ | ⟨hnot, -⟩ := hprint
    · exact ⟨dpid, w', c, hdpid, heq.trans hprint⟩
    · exact absurd hlists hnot
  · exact absurd (hrest.symm.trans hnone) nofun
  · exact absurd (hwrites.symm.trans hnone) nofun

theorem deletable_of_deleteFlow (h : (p.deleteFlow name s).1 = .ok ()) : p.Deletable s name := by
  obtain ⟨dpid, w, c, hdpid, hwritten, hrest, heq⟩ | ⟨_, _, e, _, _, _, heq⟩ | ⟨_, e, attempts, heq⟩ :=
    deleteFlow_eq (p := p) name s
  · have hprint := printDB_eq p (p.around s.attempts) (p.removed s name w c)
    rw [collection_removed] at hprint
    obtain ⟨hlists, -⟩ | ⟨-, e, hprint⟩ := hprint
    · refine ⟨w, c, ?_, hrest, hlists⟩
      unfold DeletionWrites
      rw [hdpid]
      exact hwritten
    · rw [heq, hprint] at h
      cases h
  · rw [heq] at h
    cases h
  · rw [heq] at h
    cases h

/-- The entries with these names are deleted, and no others. -/
structure Deletes (gone : String → Prop) (s : StaticFlowEntryStorage τ)
    (r : Except Stop Unit × StaticFlowEntryStorage τ) : Prop where
  returns : r.1 = .ok ()
  consistent : r.2.Consistent
  removed : ∀ name, gone name → r.2.flowModMap.get name = none ∧ r.2.flowModNameToDpidIndex.get name = none
  kept : ∀ name, ¬gone name → r.2.flowModMap.get name = s.flowModMap.get name ∧
    r.2.flowModNameToDpidIndex.get name = s.flowModNameToDpidIndex.get name

theorem deletes_deleteFlow (hc : s.Consistent) (h : p.Deletable s name) :
    Deletes (· = name) s (p.deleteFlow name s) := by
  obtain ⟨dpid, w, c, hdpid, heq⟩ := deleteFlow_of_deletable h
  obtain ⟨flowTables, hremoved⟩ := removed_eq p w c hc hdpid
  rw [heq, hremoved]
  refine ⟨rfl, (hc.delete hdpid).outside c flowTables _, fun name' hname => ?_, fun name' hname => ?_⟩
  · subst hname
    exact ⟨HashMap.get_remove_self _ name', HashMap.get_remove_self _ name'⟩
  · exact ⟨(HashMap.get_remove ..).trans (if_neg hname), (HashMap.get_remove ..).trans (if_neg hname)⟩

/-! ## Loops -/

section Loops

variable {set : StaticFlowEntryStorage τ → List String}

/-- A deletion in the loop takes its name out of the set. -/
theorem set_ne_of_deleteFlow (hset : ∀ s, s.Consistent → ∀ name ∈ set s, s.flowModNameToDpidIndex.get name ≠ none)
    (hc : s.Consistent) (hname : name ∈ set s) {s' : StaticFlowEntryStorage τ}
    (h : p.deleteFlow name s = (.ok (), s')) : set s' ≠ set s := by
  have hdeletes := deletes_deleteFlow hc (deletable_of_deleteFlow (congrArg Prod.fst h))
  rw [h] at hdeletes
  intro heq
  exact hset s' hdeletes.consistent name (heq ▸ hname) (hdeletes.removed name rfl).2

/-- The loop returns if and only if it has at most one entry to delete. -/
theorem forEachIn_deleteFlow (hset : ∀ s, s.Consistent → ∀ name ∈ set s, s.flowModNameToDpidIndex.get name ≠ none)
    (hc : s.Consistent) (h : (Method.forEachIn set (set s) p.deleteFlow (p.order.iter (set s)) s).1 = .ok ()) :
    set s = [] ∨ ∃ name, set s = [name] ∧ p.Deletable s name := by
  have hperm := p.order.perm (set s)
  have hidle : ∀ name ∈ (p.order.iter (set s)).dropLast, p.deleteFlow name s = (.ok (), s) := by
    refine Method.idle_of_forEachIn (fun name hname => .inr fun s' hs' => ?_) h
    exact set_ne_of_deleteFlow hset hc (hperm.mem_iff.1 hname) hs'
  cases hiter : p.order.iter (set s) with
  | nil =>
    rw [hiter] at hperm
    exact .inl hperm.nil_eq.symm
  | cons name names =>
    rw [hiter] at hperm hidle h
    cases names with
    | nil =>
      rw [Method.forEachIn_singleton] at h
      exact .inr ⟨name, List.perm_singleton.1 hperm.symm, deletable_of_deleteFlow h⟩
    | cons name' names =>
      have hname := hidle name List.mem_cons_self
      exact absurd rfl (set_ne_of_deleteFlow hset hc (hperm.mem_iff.1 List.mem_cons_self) hname)

variable (set) in
theorem forEachIn_deleteFlow_singleton (h : set s = [name]) :
    Method.forEachIn set (set s) p.deleteFlow (p.order.iter (set s)) s = p.deleteFlow name s := by
  rw [h, List.perm_singleton.1 (p.order.perm [name]), Method.forEachIn_singleton]

end Loops

/-- **Deletions of a switch.** They are the deletions of its entries if and only if it has one entry, and that one
can be deleted. -/
theorem deletes_deleteFlowsForSwitch_iff (hc : s.Consistent) (dpid : String) :
    Deletes (fun name => s.flowModNameToDpidIndex.get name = some dpid) s (p.deleteFlowsForSwitch dpid s) ↔
      ∃ name, s.dpidToFlowModNameIndex.get dpid = some [name] ∧ p.Deletable s name := by
  unfold deleteFlowsForSwitch
  rw [Method.get_bind_apply]
  cases hnames : s.dpidToFlowModNameIndex.get dpid with
  | none =>
    refine iff_of_false (fun h => ?_) (fun ⟨_, h, _⟩ => nomatch h)
    exact absurd h.returns nofun
  | some names =>
    rw [Method.nonNull_some, Method.pure_bind]
    have hset : ∀ s : StaticFlowEntryStorage τ, s.Consistent →
        ∀ name ∈ (s.dpidToFlowModNameIndex.get dpid).getD [], s.flowModNameToDpidIndex.get name ≠ none := by
      intro s hc name hname
      cases hget : s.dpidToFlowModNameIndex.get dpid with
      | none => simp [hget] at hname
      | some names =>
        rw [hget, Option.getD_some] at hname
        rw [(hc.listed_iff dpid name).1 ⟨names, hget, hname⟩]
        exact Option.some_ne_none dpid
    have hmade : (s.dpidToFlowModNameIndex.get dpid).getD [] = names := by rw [hnames, Option.getD_some]
    constructor
    · intro h
      have hreturns := h.returns
      rw [← hmade] at hreturns
      obtain hnil | ⟨name, hone, hdeletable⟩ := forEachIn_deleteFlow hset hc hreturns
      · exact absurd (hmade.symm.trans hnil ▸ hnames) (hc.nonempty dpid)
      · exact ⟨name, congrArg some (hmade.symm.trans hone), hdeletable⟩
    · rintro ⟨name, hone, hdeletable⟩
      obtain rfl := Option.some.inj hone
      have hgone : (fun name' => s.flowModNameToDpidIndex.get name' = some dpid) = (· = name) := by
        funext name'
        refine propext ((hc.listed_iff dpid name').symm.trans ?_)
        unfold SetMap.Has
        simp [hnames]
      have hloop := forEachIn_deleteFlow_singleton (p := p)
        (fun s => (s.dpidToFlowModNameIndex.get dpid).getD []) hmade
      rw [hmade] at hloop
      rw [hloop, hgone]
      exact deletes_deleteFlow hc hdeletable

/-- **Deletion of all entries.** It is done if and only if there is at most one, and that one can be deleted. -/
theorem deletes_deleteAllFlows_iff (hc : s.Consistent) :
    Deletes (fun name => s.flowModMap.containsKey name = true) s (p.deleteAllFlows s) ↔
      s.flowModNameToDpidIndex.keySet = [] ∨
        ∃ name, s.flowModNameToDpidIndex.keySet = [name] ∧ p.Deletable s name := by
  unfold deleteAllFlows
  rw [Method.get_bind_apply]
  have hset : ∀ s : StaticFlowEntryStorage τ, s.Consistent →
      ∀ name ∈ s.flowModNameToDpidIndex.keySet, s.flowModNameToDpidIndex.get name ≠ none := by
    intro s _ name hname
    rw [HashMap.mem_keySet] at hname
    exact Option.isSome_iff_ne_none.1 hname
  have hgone : ∀ name, s.flowModMap.containsKey name = true ↔ name ∈ s.flowModNameToDpidIndex.keySet := by
    intro name
    rw [hc.mem_iff, HashMap.mem_keySet]
    rfl
  constructor
  · intro h
    exact forEachIn_deleteFlow hset hc h.returns
  · rintro (hnil | ⟨name, hone, hdeletable⟩)
    · have hiter : p.order.iter s.flowModNameToDpidIndex.keySet = [] := by
        rw [hnil]
        exact (p.order.perm []).eq_nil
      show Deletes _ s (Method.forEachIn (fun s => s.flowModNameToDpidIndex.keySet) s.flowModNameToDpidIndex.keySet
        p.deleteFlow (p.order.iter s.flowModNameToDpidIndex.keySet) s)
      rw [hiter]
      refine ⟨rfl, hc, fun name hname => ?_, fun _ _ => ⟨rfl, rfl⟩⟩
      rw [hgone, hnil] at hname
      cases hname
    · have heq : (fun name => s.flowModMap.containsKey name = true) = (· = name) := by
        funext name'
        refine propext ((hgone name').trans ?_)
        rw [hone, List.mem_singleton]
      rw [heq]
      have hloop := forEachIn_deleteFlow_singleton (p := p) (fun s => s.flowModNameToDpidIndex.keySet) hone
      exact hloop.symm ▸ deletes_deleteFlow hc hdeletable

/-! ## Listings -/

/-- The entries of a switch by their names, as the storage gives them. -/
structure ListsFlows (s : StaticFlowEntryStorage τ) (dpid : String) (flows flowmods : HashMap String (Option Entry)) :
    Prop where
  get_iff : ∀ name v, flows.get name = some v ↔ ∃ entry, v = some entry ∧ s.flowModMap.get name = some entry ∧
    entry.get "switch" = some (.string dpid)
  agrees : ∀ name, flows.get name = flowmods.get name

theorem get_names (order : HashOrder) (s : StaticFlowEntryStorage τ) (names : List String) (name : String) :
    ((order.iter names).foldl (fun flowmods name => flowmods.put name (s.flowModMap.get name))
      (∅ : HashMap String (Option Entry))).get name = if name ∈ names then some (s.flowModMap.get name) else none := by
  split_ifs with hname
  · exact HashMap.get_foldl_put_of_mem (fun name => name) s.flowModMap.get ⟨name, order.mem_iter.2 hname, rfl⟩
      (fun _ _ heq => congrArg s.flowModMap.get heq) ∅
  · refine HashMap.get_foldl_put_of_notMem (fun name => name) s.flowModMap.get ?_ ∅
    rintro name' hmem rfl
    exact hname (order.mem_iter.1 hmem)

theorem get_getFlowModMap (order : HashOrder) (hc : s.Consistent) (dpid name : String) :
    (getFlowModMap order s dpid).get name =
      if s.flowModMap.containsKey name = true ∧ (dpid = "all" ∨ s.flowModNameToDpidIndex.get name = some dpid) then
        some (s.flowModMap.get name)
      else none := by
  unfold getFlowModMap
  by_cases hall : dpid = "all"
  · rw [if_neg (not_not.2 hall)]
    refine (get_names order s _ name).trans (if_congr ?_ rfl rfl)
    rw [HashMap.mem_keySet, and_iff_left (.inl hall)]
    rfl
  · rw [if_pos hall]
    have hmem : s.flowModMap.containsKey name = true ∧ (dpid = "all" ∨ s.flowModNameToDpidIndex.get name = some dpid) ↔
        s.dpidToFlowModNameIndex.Has dpid name := by
      rw [hc.listed_iff, or_iff_right hall, and_iff_right_iff_imp, hc.mem_iff]
      intro hname
      unfold HashMap.containsKey
      rw [hname]
      rfl
    cases hnames : s.dpidToFlowModNameIndex.get dpid with
    | none =>
      refine (if_neg fun h => ?_).symm
      obtain ⟨names, hnames', -⟩ := hmem.1 h
      cases hnames.symm.trans hnames'
    | some names =>
      refine (get_names order s names name).trans (if_congr ?_ rfl rfl)
      rw [hmem]
      unfold SetMap.Has
      simp [hnames]

theorem index_iff (hc : s.Consistent) (dpid name : String) : s.flowModNameToDpidIndex.get name = some dpid ↔
    ∃ entry, s.flowModMap.get name = some entry ∧ entry.get "switch" = some (.string dpid) := by
  constructor
  · intro hname
    have hcontains : s.flowModMap.containsKey name = true := by
      rw [hc.mem_iff]
      unfold HashMap.containsKey
      rw [hname]
      rfl
    obtain ⟨entry, hentry⟩ := Option.isSome_iff_exists.1 hcontains
    obtain ⟨dpid', hswitch, hname'⟩ := hc.switch name entry hentry
    obtain rfl := Option.some.inj (hname.symm.trans hname')
    exact ⟨entry, hentry, hswitch⟩
  · rintro ⟨entry, hentry, hswitch⟩
    obtain ⟨dpid', hswitch', hname⟩ := hc.switch name entry hentry
    obtain rfl : dpid = dpid' := by simpa using hswitch.symm.trans hswitch'
    exact hname

theorem get_eq_none_of_empty (hc : s.Consistent) (h : s.dpidToFlowModNameIndex.keySet = []) (name : String) :
    s.flowModMap.get name = none := by
  refine Option.eq_none_iff_forall_not_mem.2 fun entry hentry => ?_
  obtain ⟨dpid, -, hname⟩ := hc.switch name entry hentry
  obtain ⟨names, hnames, -⟩ := (hc.listed_iff dpid name).2 hname
  have hmem := (HashMap.mem_keySet_iff _).2 ⟨names, hnames⟩
  rw [h] at hmem
  cases hmem

/-- **Entries of a switch.** They are listed if and only if there are no entries at all, or the only entry of the
switch has the id of the switch for its name, and the iterator comes to that switch last. -/
theorem listsFlows_iff (hc : s.Consistent) (hnamed : s.Named) (dpid : String) :
    ListsFlows s dpid (p.getFlowsForSwitch s dpid) (getFlowModMap p.order s dpid) ↔
      s.dpidToFlowModNameIndex.keySet = [] ∨
        (∀ name, s.flowModNameToDpidIndex.get name = some dpid ↔ name = dpid) ∧
        (p.order.iter s.dpidToFlowModNameIndex.keySet).getLast? = some dpid ∧
        (dpid = "all" → ∀ name, s.flowModMap.containsKey name = true → name = dpid) := by
  cases hlast : (p.order.iter s.dpidToFlowModNameIndex.keySet).getLast? with
  | none =>
    have hiter := List.getLast?_eq_none_iff.1 hlast
    have hempty : s.dpidToFlowModNameIndex.keySet = [] := by
      have hperm := p.order.perm s.dpidToFlowModNameIndex.keySet
      rw [hiter] at hperm
      exact hperm.nil_eq.symm
    refine iff_of_true ⟨fun name v => ?_, fun name => ?_⟩ (.inl hempty)
    · unfold getFlowsForSwitch
      rw [hiter]
      refine iff_of_false nofun ?_
      rintro ⟨entry, -, hentry, -⟩
      rw [get_eq_none_of_empty hc hempty] at hentry
      cases hentry
    · unfold getFlowsForSwitch
      rw [hiter, get_getFlowModMap p.order hc, if_neg]
      · rfl
      · unfold HashMap.containsKey
        simp [get_eq_none_of_empty hc hempty]
  | some k =>
    have hget : ∀ name, (p.getFlowsForSwitch s dpid).get name =
        if name = dpid then some (s.flowModMap.get k) else none := fun name =>
      HashMap.get_foldl_put_last s.flowModMap.get dpid hlast ∅ name
    constructor
    · intro h
      obtain ⟨entry, hk, hentry, hswitch⟩ := (h.get_iff dpid (s.flowModMap.get k)).1 (by rw [hget, if_pos rfl])
      have hname := (hnamed k entry hk).symm.trans (hnamed dpid entry hentry)
      obtain rfl : k = dpid := by simpa using hname
      have honly : ∀ name v, (p.getFlowsForSwitch s k).get name = some v → name = k := by
        intro name v hv
        by_contra hne
        rw [hget, if_neg hne] at hv
        cases hv
      refine .inr ⟨fun name => ⟨fun hname => ?_, ?_⟩, rfl, fun hall name hname => ?_⟩
      · obtain ⟨entry', hentry', hswitch'⟩ := (index_iff hc k name).1 hname
        exact honly name _ ((h.get_iff name (some entry')).2 ⟨entry', rfl, hentry', hswitch'⟩)
      · rintro rfl
        exact (index_iff hc name name).2 ⟨entry, hk, hswitch⟩
      · refine honly name (s.flowModMap.get name) ((h.agrees name).trans ?_)
        rw [get_getFlowModMap p.order hc, if_pos ⟨hname, .inl hall⟩]
    · rintro (hempty | ⟨hone, hdpid, hall⟩)
      · have hmem := p.order.mem_iter.1 (List.mem_of_getLast? hlast)
        rw [hempty] at hmem
        cases hmem
      · obtain rfl := Option.some.inj hdpid
        obtain ⟨entry, hentry, hswitch⟩ := (index_iff hc k k).1 ((hone k).2 rfl)
        refine ⟨fun name v => ?_, fun name => ?_⟩
        · rw [hget]
          constructor
          · intro hv
            split_ifs at hv with hname
            subst hname
            exact ⟨entry, (Option.some.inj hv).symm.trans hentry, hentry, hswitch⟩
          · rintro ⟨entry', rfl, hentry', hswitch'⟩
            obtain rfl := (hone name).1 ((index_iff hc k name).2 ⟨entry', hentry', hswitch'⟩)
            rw [if_pos rfl, hentry']
        · rw [hget, get_getFlowModMap p.order hc]
          by_cases hname : name = k
          · subst hname
            have hcontains : s.flowModMap.containsKey name = true := by
              unfold HashMap.containsKey
              rw [hentry]
              rfl
            rw [if_pos rfl, if_pos ⟨hcontains, .inr ((hone name).2 rfl)⟩]
          · rw [if_neg hname, if_neg]
            rintro ⟨hcontains, heq | hindex⟩
            · exact hname (hall heq name hcontains)
            · exact hname ((hone name).1 hindex)

/-! ## Runs -/

section Loaded

variable {documents : List Entry}

theorem named_loaded (h : Loads documents) {name : String} {entry : Entry}
    (hentry : (loaded documents).get name = some entry) :
    entry.get "name" = some (.string name) ∧ entry.get "switch" = some (.string (switchOf (loaded documents) name)) := by
  obtain ⟨entry', hmem, hname, rfl⟩ := HashMap.mem_of_get_foldl_put nameOf (fun entry => entry) hentry
  obtain ⟨document, hdocument, rfl⟩ := List.mem_map.1 hmem
  obtain ⟨⟨name', hname'⟩, dpid, hdpid⟩ := h document hdocument
  obtain rfl : name' = name := (nameOf_eq hname').symm.trans hname
  refine ⟨hname', ?_⟩
  unfold switchOf
  rw [hentry, Option.bind_some, hdpid]
  rfl

/-- What is loaded from a database of entries with names and switches is filed. -/
theorem filed_loaded (order : HashOrder) (h : Loads documents) (flowTables : Dpid → τ) :
    Consistent (loadFlowModsFromDB order true (initial (some documents) flowTables)).2 ∧
      Named (loadFlowModsFromDB order true (initial (some documents) flowTables)).2 := by
  rw [loadFlowModsFromDB_eq order h flowTables]
  have hindex : ∀ name, ((order.iter (loaded documents).keySet).foldl
      (fun m name => m.put name (switchOf (loaded documents) name)) (∅ : HashMap String String)).get name =
        if name ∈ (loaded documents).keySet then some (switchOf (loaded documents) name) else none := by
    intro name
    split_ifs with hname
    · exact HashMap.get_foldl_put_of_mem (fun name => name) (switchOf (loaded documents))
        ⟨name, order.mem_iter.2 hname, rfl⟩ (fun _ _ heq => congrArg _ heq) ∅
    · refine HashMap.get_foldl_put_of_notMem (fun name => name) (switchOf (loaded documents)) ?_ ∅
      rintro name' hmem rfl
      exact hname (order.mem_iter.1 hmem)
  refine ⟨⟨fun name => ?_, fun dpid name => ?_, fun name entry hentry => ?_, fun dpid => ?_⟩,
    fun name entry hentry => (named_loaded h hentry).1⟩
  · have hkey := HashMap.mem_keySet (loaded documents) (k := name)
    show ((loaded documents).get name).isSome = true ↔ (HashMap.get _ name).isSome = true
    rw [hindex, ← hkey]
    split_ifs with hname <;> simp [hname]
  · have hempty : ¬(∅ : SetMap String String).Has dpid name := fun ⟨_, hs, _⟩ => nomatch hs
    dsimp only
    rw [SetMap.has_foldl_add, or_iff_right hempty, List.mem_map, hindex]
    constructor
    · rintro ⟨name', hmem, heq⟩
      obtain ⟨rfl, rfl⟩ := Prod.mk.inj heq
      rw [if_pos (order.mem_iter.1 hmem)]
    · intro hname
      split_ifs at hname with hmem
      exact ⟨name, order.mem_iter.2 hmem, by rw [Option.some.inj hname]⟩
  · refine ⟨_, (named_loaded h hentry).2, ?_⟩
    dsimp only
    rw [hindex, if_pos ((HashMap.mem_keySet_iff _).2 ⟨entry, hentry⟩)]
  · exact SetMap.get_ofEntries_ne_nil _ dpid

end Loaded

/-- A store that the manager starts with: without a database, or loaded from one. -/
inductive Starts (order : HashOrder) : StaticFlowEntryStorage τ → Prop
  | empty (flowTables : Dpid → τ) : Starts order (initial none flowTables)
  | loaded (documents : List Entry) (flowTables : Dpid → τ) : Loads documents →
    Starts order (loadFlowModsFromDB order true (initial (some documents) flowTables)).2

/-- A store that the manager comes to by calls. -/
def Reachable (p : StaticFlowEntryManager φ τ) (s : StaticFlowEntryStorage τ) : Prop :=
  ∃ s₀ calls, Starts p.order s₀ ∧ s = Machine.run p.step s₀ calls

theorem Reachable.filed (h : p.Reachable s) : s.Consistent ∧ s.Named := by
  obtain ⟨s₀, calls, hstarts, rfl⟩ := h
  refine Machine.run_invariant (fun s call h => invariant_filed.handle call s h) ?_ calls
  cases hstarts with
  | empty flowTables => exact ⟨consistent_initial none flowTables, fun _ _ => nofun⟩
  | loaded documents flowTables hloads => exact filed_loaded p.order hloads flowTables

/-- In every state that is reached, the entries of a switch, or all entries, are deleted if and only if there is one,
or at most one, and its deletion meets no failure outside; and the entries of a switch are listed just in the cases
of `listsFlows_iff`. -/
theorem bulk_iff (p : StaticFlowEntryManager φ τ) (s : StaticFlowEntryStorage τ) (h : p.Reachable s) (dpid : String) :
    (Deletes (fun name => s.flowModNameToDpidIndex.get name = some dpid) s (p.deleteFlowsForSwitch dpid s) ↔
      ∃ name, s.dpidToFlowModNameIndex.get dpid = some [name] ∧ p.Deletable s name) ∧
    (Deletes (fun name => s.flowModMap.containsKey name = true) s (p.deleteAllFlows s) ↔
      s.flowModNameToDpidIndex.keySet = [] ∨
        ∃ name, s.flowModNameToDpidIndex.keySet = [name] ∧ p.Deletable s name) ∧
    (ListsFlows s dpid (p.getFlowsForSwitch s dpid) (getFlowModMap p.order s dpid) ↔
      s.dpidToFlowModNameIndex.keySet = [] ∨
        (∀ name, s.flowModNameToDpidIndex.get name = some dpid ↔ name = dpid) ∧
        (p.order.iter s.dpidToFlowModNameIndex.keySet).getLast? = some dpid ∧
        (dpid = "all" → ∀ name, s.flowModMap.containsKey name = true → name = dpid)) :=
  ⟨deletes_deleteFlowsForSwitch_iff h.filed.1 dpid, deletes_deleteAllFlows_iff h.filed.1,
    listsFlows_iff h.filed.1 h.filed.2 dpid⟩

/-- The manager of a controller without a database, behind additions of entries with these names. -/
def withEntries (names : List String) : StaticFlowEntryStorage (List ℤ) :=
  Machine.run (byPriority fun _ => sound).step (initial none fun _ => [])
    (names.map fun name => .addFlow ((entryOf "100").put "name" (.string name)))

theorem reachable_withEntries (names : List String) : (byPriority fun _ => sound).Reachable (withEntries names) :=
  ⟨_, _, .empty fun _ => [], rfl⟩

theorem bulk_iff_one :
    Deletes (fun name => (withEntries ["s1"]).flowModNameToDpidIndex.get name = some "00:00:00:00:00:00:00:01")
        (withEntries ["s1"]) ((byPriority fun _ => sound).deleteFlowsForSwitch "00:00:00:00:00:00:00:01" (withEntries ["s1"])) ∧
      Deletes (fun name => (withEntries ["s1"]).flowModMap.containsKey name = true) (withEntries ["s1"])
        ((byPriority fun _ => sound).deleteAllFlows (withEntries ["s1"])) := by
  have hdeletable : (byPriority fun _ => sound).Deletable (withEntries ["s1"]) "s1" :=
    deletable_of_deleteFlow (by decide +kernel)
  have hall := bulk_iff (byPriority fun _ => sound) (withEntries ["s1"]) (reachable_withEntries ["s1"])
    "00:00:00:00:00:00:00:01"
  exact ⟨hall.1.2 ⟨"s1", by decide +kernel, hdeletable⟩, hall.2.1.2 (.inr ⟨"s1", by decide +kernel, hdeletable⟩)⟩

/-- The iterators throw behind the first of two deletions, and the listing has a null under the id of the switch. -/
theorem not_deletes_two : (byPriority fun _ => sound).Reachable (withEntries ["s1", "s2"]) ∧
    ¬Deletes (fun name => (withEntries ["s1", "s2"]).flowModNameToDpidIndex.get name = some "00:00:00:00:00:00:00:01")
        (withEntries ["s1", "s2"])
        ((byPriority fun _ => sound).deleteFlowsForSwitch "00:00:00:00:00:00:00:01" (withEntries ["s1", "s2"])) ∧
      ¬Deletes (fun name => (withEntries ["s1", "s2"]).flowModMap.containsKey name = true) (withEntries ["s1", "s2"])
        ((byPriority fun _ => sound).deleteAllFlows (withEntries ["s1", "s2"])) ∧
      ¬ListsFlows (withEntries ["s1", "s2"]) "00:00:00:00:00:00:00:01"
        ((byPriority fun _ => sound).getFlowsForSwitch (withEntries ["s1", "s2"]) "00:00:00:00:00:00:00:01")
        (getFlowModMap .insertion (withEntries ["s1", "s2"]) "00:00:00:00:00:00:00:01") := by
  refine ⟨reachable_withEntries _, fun h => ?_, fun h => ?_, fun h => ?_⟩
  · exact absurd h.returns (by decide +kernel)
  · exact absurd h.returns (by decide +kernel)
  · have hnull : (((byPriority fun _ => sound).getFlowsForSwitch (withEntries ["s1", "s2"])
        "00:00:00:00:00:00:00:01").get "00:00:00:00:00:00:00:01").map Option.isSome = some false := by
      decide +kernel
    obtain ⟨v, hv, hnone⟩ := Option.map_eq_some_iff.1 hnull
    obtain ⟨entry, rfl, -⟩ := (h.get_iff _ v).1 hv
    cases hnone

end StaticFlowEntryManager

end Torpedo
