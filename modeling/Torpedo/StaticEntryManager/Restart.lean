import Torpedo.StaticEntryManager.Mirrored
import Torpedo.Util.Entries
import Torpedo.Util.Runs

/-!
# Restarts

A controller that starts loads the entries from the database, and comes to the same store if the database holds just
the documents of the entries and each entry is made of its document again. An addition breaks this if the database
refuses the document: `insert` reports that by its result, which `insertDBEntry` does not look at. The entry can then
be neither deleted nor replaced. The maps of the storage agree with each other in any case.
-/

namespace Torpedo

open StorageConverter

namespace StaticFlowEntryStorage

variable {τ : Type} {s : StaticFlowEntryStorage τ}

/-! ## Loading -/

/-- The name of an entry that has one. -/
def nameOf (entry : Entry) : String := ((entry.get "name").bind Value.asString).getD ""

/-- The switch that a name is indexed by. -/
def switchOf (entries : HashMap String Entry) (name : String) : String :=
  ((entries.get name).bind fun entry => (entry.get "switch").map Value.toText).getD ""

theorem nameOf_eq {entry : Entry} {name : String} (h : entry.get "name" = some (.string name)) :
    nameOf entry = name := by
  unfold nameOf
  rw [h]
  rfl

theorem forEach_loadEntry {entries : List Entry} (hnames : ∀ entry ∈ entries, ∃ name,
    entry.get "name" = some (.string name)) (s : StaticFlowEntryStorage τ) :
    Method.forEach loadEntry entries s = (.ok (), { s with
      flowModMap := entries.foldl (fun m entry => m.put (nameOf entry) entry) s.flowModMap }) := by
  induction entries generalizing s with
  | nil => rfl
  | cons entry entries ih =>
    obtain ⟨name, hname⟩ := hnames entry List.mem_cons_self
    have hload : loadEntry entry s = (.ok (), { s with flowModMap := s.flowModMap.put (nameOf entry) entry }) := by
      unfold loadEntry
      rw [hname, nameOf_eq hname]
      rfl
    rw [Method.forEach_cons, Method.bind_ok hload, ih fun e he => hnames e (List.mem_cons_of_mem _ he)]
    rfl

/-- Each name has an entry with a switch. -/
def Switched (entries : HashMap String Entry) (names : List String) : Prop :=
  ∀ name ∈ names, ∃ entry dpid, entries.get name = some entry ∧ entry.get "switch" = some (.string dpid)

theorem forEach_indexByDpid {names : List String} {s : StaticFlowEntryStorage τ}
    (h : Switched s.flowModMap names) : Method.forEach indexByDpid names s = (.ok (), { s with
      dpidToFlowModNameIndex := (names.map fun name => (switchOf s.flowModMap name, name)).foldl
        (fun m e => m.add e.1 e.2) s.dpidToFlowModNameIndex }) := by
  induction names generalizing s with
  | nil => rfl
  | cons name names ih =>
    obtain ⟨entry, dpid, hentry, hdpid⟩ := h name List.mem_cons_self
    have hindex : indexByDpid name s = (.ok (), { s with
        dpidToFlowModNameIndex := s.dpidToFlowModNameIndex.add (switchOf s.flowModMap name) name }) := by
      unfold indexByDpid switchOf
      rw [Method.get_bind_apply, hentry, Method.nonNull_some, Method.pure_bind, hdpid, Option.bind_some, hdpid]
      rfl
    rw [Method.forEach_cons, Method.bind_ok hindex]
    exact ih fun n hn => h n (List.mem_cons_of_mem _ hn)

theorem forEach_indexByName {names : List String} {s : StaticFlowEntryStorage τ}
    (h : Switched s.flowModMap names) : Method.forEach indexByName names s = (.ok (), { s with
      flowModNameToDpidIndex := names.foldl (fun m name => m.put name (switchOf s.flowModMap name))
        s.flowModNameToDpidIndex }) := by
  induction names generalizing s with
  | nil => rfl
  | cons name names ih =>
    obtain ⟨entry, dpid, hentry, hdpid⟩ := h name List.mem_cons_self
    have hindex : indexByName name s = (.ok (), { s with
        flowModNameToDpidIndex := s.flowModNameToDpidIndex.put name (switchOf s.flowModMap name) }) := by
      unfold indexByName switchOf
      rw [Method.get_bind_apply, hentry, Method.nonNull_some, Method.pure_bind, hdpid, Option.bind_some, hdpid]
      rfl
    rw [Method.forEach_cons, Method.bind_ok hindex]
    exact ih fun n hn => h n (List.mem_cons_of_mem _ hn)

/-- The entries that are loaded from a collection. -/
def loaded (documents : List Entry) : HashMap String Entry :=
  (documents.map dbObjectToMap).foldl (fun m entry => m.put (nameOf entry) entry) ∅

/-- The documents give entries with names and switches. -/
def Loads (documents : List Entry) : Prop := ∀ document ∈ documents,
  (∃ name, (dbObjectToMap document).get "name" = some (.string name)) ∧
  ∃ dpid, (dbObjectToMap document).get "switch" = some (.string dpid)

theorem switched_loaded {documents : List Entry} (h : Loads documents) (order : HashOrder) :
    Switched (loaded documents) (order.iter (loaded documents).keySet) := by
  intro name hname
  rw [HashOrder.mem_iter, HashMap.mem_keySet_iff] at hname
  obtain ⟨entry, hentry⟩ := hname
  obtain ⟨entry', hmem, -, rfl⟩ := HashMap.mem_of_get_foldl_put nameOf id hentry
  obtain ⟨document, hdocument, rfl⟩ := List.mem_map.1 hmem
  obtain ⟨-, dpid, hdpid⟩ := h document hdocument
  exact ⟨_, dpid, hentry, hdpid⟩

theorem loadFlowModsFromDB_eq (order : HashOrder) {documents : List Entry} (h : Loads documents)
    (flowTables : Dpid → τ) :
    loadFlowModsFromDB order true (initial (some documents) flowTables) = (.ok (), {
      flowModMap := loaded documents
      dpidToFlowModNameIndex := ((order.iter (loaded documents).keySet).map fun name =>
        (switchOf (loaded documents) name, name)).foldl (fun m e => m.add e.1 e.2) ∅
      flowModNameToDpidIndex := (order.iter (loaded documents).keySet).foldl
        (fun m name => m.put name (switchOf (loaded documents) name)) ∅
      collection := some documents
      flowTables
      attempts := 0 }) := by
  have hnames : ∀ entry ∈ documents.map dbObjectToMap, ∃ name, entry.get "name" = some (.string name) := by
    intro entry hmem
    obtain ⟨document, hdocument, rfl⟩ := List.mem_map.1 hmem
    exact (h document hdocument).1
  have hall : getAllDBEntries true (initial (some documents) flowTables) =
      (.ok (documents.map dbObjectToMap), initial (some documents) flowTables) := rfl
  have hswitched := switched_loaded h order
  unfold loadFlowModsFromDB buildIndices
  rw [Method.bind_ok hall, Method.bind_ok (forEach_loadEntry hnames _), Method.get_bind_apply]
  exact (Method.bind_ok (forEach_indexByDpid hswitched)).trans (forEach_indexByName hswitched)

/-! ## What is loaded -/

section Loaded

variable {documents : List Entry}

theorem get_switch_dbObjectToMap {entry : Entry} {dpid : String} (h : entry.get "switch" = some (.string dpid)) :
    (dbObjectToMap (mapToDBObject entry)).get "switch" = some (.string dpid) := by
  have hplain : Plain "switch" := by decide
  rw [get_dbObjectToMap hplain, get_mapToDBObject hplain, h]
  rfl

theorem loads_of_mirrors (hconsistent : s.Consistent) (hnamed : s.Named) (hmirrors : s.Mirrors)
    (hdocuments : s.collection = some documents) : Loads documents := by
  intro document hmem
  obtain ⟨name, entry, hentry, rfl⟩ := ((hmirrors documents hdocuments).2 document).1 hmem
  obtain ⟨dpid, hdpid, -⟩ := hconsistent.switch name entry hentry
  exact ⟨⟨name, (get_name_dbObjectToMap (hnamed name entry hentry)).2⟩, dpid, get_switch_dbObjectToMap hdpid⟩

theorem get_loaded (h : s.InStep) (hdocuments : s.collection = some documents) (name : String) :
    (loaded documents).get name = s.flowModMap.get name := by
  have hmem := (h.mirrors documents hdocuments).2
  have hentries : ∀ entry ∈ documents.map dbObjectToMap, s.flowModMap.get (nameOf entry) = some entry := by
    intro entry hentry
    obtain ⟨document, hdocument, rfl⟩ := List.mem_map.1 hentry
    obtain ⟨name', entry', hentry', rfl⟩ := (hmem document).1 hdocument
    rw [h.survives (by rw [hdocuments]; rfl) name' entry' hentry', nameOf_eq (h.named name' entry' hentry')]
    exact hentry'
  unfold loaded
  cases hget : s.flowModMap.get name with
  | none =>
    rw [HashMap.get_foldl_put_of_notMem nameOf fun entry => entry]
    · rfl
    · rintro entry hentry rfl
      rw [hentries entry hentry] at hget
      cases hget
  | some entry =>
    refine HashMap.get_foldl_put_of_mem nameOf (fun entry => entry) ⟨entry, ?_, nameOf_eq (h.named name entry hget)⟩ ?_ ∅
    · refine List.mem_map.2 ⟨_, (hmem _).2 ⟨name, entry, hget, rfl⟩, ?_⟩
      exact h.survives (by rw [hdocuments]; rfl) name entry hget
    · rintro entry' hentry' rfl
      exact Option.some.inj ((hentries entry' hentry').symm.trans hget)

theorem switchOf_loaded (h : s.InStep) (hdocuments : s.collection = some documents) {name : String}
    (hmem : name ∈ (loaded documents).keySet) :
    s.flowModNameToDpidIndex.get name = some (switchOf (loaded documents) name) := by
  rw [HashMap.mem_keySet_iff] at hmem
  obtain ⟨entry, hentry⟩ := hmem
  have hget := (get_loaded h hdocuments name).symm.trans hentry
  obtain ⟨dpid, hdpid, hindex⟩ := h.consistent.switch name entry hget
  unfold switchOf
  rw [hindex, hentry, Option.bind_some, hdpid]
  rfl

theorem mem_keySet_loaded (h : s.InStep) (hdocuments : s.collection = some documents) {name dpid : String}
    (hindex : s.flowModNameToDpidIndex.get name = some dpid) : name ∈ (loaded documents).keySet := by
  have hcontains := (h.consistent.mem_iff name).2 (by unfold HashMap.containsKey; rw [hindex]; rfl)
  rw [HashMap.mem_keySet, get_loaded h hdocuments]
  exact hcontains

/-- The store that is in step is rebuilt. -/
theorem rebuilds_of_inStep (h : s.InStep) (order : HashOrder) : s.Rebuilds order := by
  intro documents hdocuments
  have hloads := loads_of_mirrors h.consistent h.named h.mirrors hdocuments
  refine ⟨_, loadFlowModsFromDB_eq order hloads s.flowTables, get_loaded h hdocuments, ?_, ?_, ?_, rfl⟩
  · intro dpid name
    have hempty : ¬(∅ : SetMap String String).Has dpid name := fun ⟨_, hs, _⟩ => nomatch hs
    rw [SetMap.has_foldl_add, h.consistent.listed_iff, List.mem_map]
    constructor
    · rintro (hhas | ⟨name', hmem, heq⟩)
      · exact absurd hhas hempty
      · obtain ⟨rfl, rfl⟩ := Prod.mk.inj heq
        exact switchOf_loaded h hdocuments ((HashOrder.mem_iter ..).1 hmem)
    · intro hindex
      have hmem := mem_keySet_loaded h hdocuments hindex
      have hswitch := (switchOf_loaded h hdocuments hmem).symm.trans hindex
      exact .inr ⟨name, (HashOrder.mem_iter ..).2 hmem, by rw [Option.some.inj hswitch]⟩
  · intro name
    dsimp only
    cases hindex : s.flowModNameToDpidIndex.get name with
    | none =>
      rw [HashMap.get_foldl_put_of_notMem (fun name => name) (switchOf (loaded documents))]
      · rfl
      · rintro name' hmem rfl
        rw [switchOf_loaded h hdocuments ((HashOrder.mem_iter ..).1 hmem)] at hindex
        cases hindex
    | some dpid =>
      have hmem := mem_keySet_loaded h hdocuments hindex
      refine HashMap.get_foldl_put_of_mem (fun name => name) (switchOf (loaded documents))
        ⟨name, (HashOrder.mem_iter ..).2 hmem, rfl⟩ ?_ ∅
      rintro name' hmem' rfl
      exact Option.some.inj ((switchOf_loaded h hdocuments hmem).symm.trans hindex)
  · rw [hdocuments]

/-- A store that is rebuilt has only entries that are made of their documents again. -/
theorem survives_of_rebuilds (hconsistent : s.Consistent) (hnamed : s.Named) (hmirrors : s.Mirrors)
    {order : HashOrder} (hrebuilds : s.Rebuilds order) : s.Survives := by
  intro hconnected name entry hentry
  obtain ⟨documents, hdocuments⟩ := Option.isSome_iff_exists.1 hconnected
  have hloads := loads_of_mirrors hconsistent hnamed hmirrors hdocuments
  obtain ⟨s', hload, hsame⟩ := hrebuilds documents hdocuments
  rw [loadFlowModsFromDB_eq order hloads] at hload
  obtain ⟨-, rfl⟩ := Prod.mk.inj hload
  have hget : (loaded documents).get name = some entry := (hsame.entries name).trans hentry
  obtain ⟨entry', hmem, -, rfl⟩ := HashMap.mem_of_get_foldl_put nameOf (fun entry => entry) hget
  obtain ⟨document, hdocument, hrebuilt⟩ := List.mem_map.1 hmem
  exact survives_of_rebuilt hnamed hmirrors hdocuments hentry hdocument hrebuilt

end Loaded

end StaticFlowEntryStorage

/-! ## Runs -/

namespace StaticFlowEntryManager

open StaticFlowEntryStorage

variable {φ τ : Type} {p : StaticFlowEntryManager φ τ}

/-- The maps agree, the database holds the entries, and a restart gives the same store. -/
structure Agrees (p : StaticFlowEntryManager φ τ) (s : StaticFlowEntryStorage τ) : Prop where
  consistent : s.Consistent
  mirrors : s.Mirrors
  rebuilds : s.Rebuilds p.order

theorem inStep_of_agrees {s : StaticFlowEntryStorage τ} (hnamed : s.Named) (h : p.Agrees s) : s.InStep :=
  ⟨h.consistent, hnamed, h.mirrors, survives_of_rebuilds h.consistent hnamed h.mirrors h.rebuilds⟩

theorem agrees_of_inStep {s : StaticFlowEntryStorage τ} (h : s.InStep) : p.Agrees s :=
  ⟨h.consistent, h.mirrors, rebuilds_of_inStep h p.order⟩

theorem not_agrees_of_fails {s : StaticFlowEntryStorage τ} (hnamed : s.Named) (h : p.Agrees s) {call : StaticFlowCall}
    (hfails : p.Fails s call) : ¬p.Agrees (p.step s call) := by
  intro hagrees
  have hfiled := (invariant_filed (p := p)).handle call s ⟨h.consistent, hnamed⟩
  have hstep := inStep_of_agrees hfiled.2 hagrees
  obtain ⟨name, hlost⟩ | ⟨name, entry, hentry, hconnected, hne⟩ := step_fails ⟨inStep_of_agrees hnamed h, rfl⟩ hfails
  · exact hstep.mirrors.not_lost hstep.named name hlost.lost
  · exact hne (hstep.survives hconnected name entry hentry)

theorem inStep_initial (connected : Bool) (flowTables : Dpid → τ) :
    (initial (if connected then some [] else none) flowTables).InStep where
  consistent := consistent_initial _ _
  named _ _ := nofun
  mirrors := by
    intro documents hdocuments
    cases connected with
    | false => cases hdocuments
    | true =>
      obtain rfl := Option.some.inj hdocuments
      exact ⟨List.nodup_nil, fun document => ⟨nofun, fun ⟨_, _, h, _⟩ => nomatch h⟩⟩
  survives _ _ _ := nofun

/-- From the start on, the maps agree with each other and with the database in every state of a run, if and only if
no addition comes to a database that refuses the entry, or that takes in one which is not made of its document
again. -/
theorem mirrored_iff_clean (p : StaticFlowEntryManager φ τ) (connected : Bool) (flowTables : Dpid → τ)
    (calls : List StaticFlowCall) :
    (∀ pre post, calls = pre ++ post →
      p.Agrees (Machine.run p.step (initial (if connected then some [] else none) flowTables) pre)) ↔
    Machine.Clean p.step p.Fails (initial (if connected then some [] else none) flowTables) calls := by
  have hinitial := inStep_initial connected flowTables
  refine Machine.always_iff_clean (I := fun s => s.Consistent ∧ s.Named) (fun s call h => ?_) (fun s call h hP hok => ?_)
    (fun s call h hP hfails => ?_) ⟨hinitial.consistent, hinitial.named⟩ (agrees_of_inStep hinitial)
  · exact invariant_filed.handle call s h
  · exact agrees_of_inStep (step_inStepAt ⟨inStep_of_agrees h.2 hP, rfl⟩ hok).1
  · exact not_agrees_of_fails h.2 hP hfails

/-- The database reports an error when the document is inserted, and the entry is in memory alone. -/
theorem not_agrees_refused : ¬∀ (p : StaticFlowEntryManager (FlowModCommand × ℤ) (List ℤ)) (connected : Bool) flowTables
    (calls : List StaticFlowCall) pre post, calls = pre ++ post →
      p.Agrees (Machine.run p.step (initial (if connected then some [] else none) flowTables) pre) := by
  intro h
  have hagrees := h (byPriority fun _ => { sound with inserts := false }) true (fun _ => [])
    [.addFlow (entryOf "100")] [.addFlow (entryOf "100")] [] rfl
  generalize hs : Machine.run (byPriority fun _ => { sound with inserts := false }).step
    (initial (if true then some [] else none) fun _ => []) [.addFlow (entryOf "100")] = s at hagrees
  have hentry : (s.flowModMap.get "s1").isSome = true := by
    rw [← hs]
    decide +kernel
  have hempty : s.collection.map List.length = some 0 := by
    rw [← hs]
    decide +kernel
  obtain ⟨entry, hentry⟩ := Option.isSome_iff_exists.1 hentry
  obtain ⟨documents, hdocuments, hlength⟩ := Option.map_eq_some_iff.1 hempty
  have hmem := ((hagrees.mirrors documents hdocuments).2 _).2 ⟨"s1", entry, hentry, rfl⟩
  rw [List.length_eq_zero_iff.1 hlength] at hmem
  cases hmem

end StaticFlowEntryManager

end Torpedo
