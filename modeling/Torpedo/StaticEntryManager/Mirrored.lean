import Torpedo.StaticEntryManager.Operations

/-!
# The entries in the database

The database is in step with the maps (`InStep`), or an entry of the maps is lost in it (`OutOfStep`). Deletions keep
either, and so do additions, but for those of `Refused` and `Altered`. An entry that is lost stays so.
-/

namespace Torpedo

open StorageConverter

namespace StaticFlowEntryStorage

variable {τ : Type} (s : StaticFlowEntryStorage τ)

/-! ## Invariants -/

/-- A name has an entry if and only if it is indexed, and it is listed under the switch of its entry alone. -/
structure Consistent : Prop where
  mem_iff : ∀ name, s.flowModMap.containsKey name = true ↔ s.flowModNameToDpidIndex.containsKey name = true
  listed_iff : ∀ dpid name, s.dpidToFlowModNameIndex.Has dpid name ↔ s.flowModNameToDpidIndex.get name = some dpid
  switch : ∀ name entry, s.flowModMap.get name = some entry → ∃ dpid, entry.get "switch" = some (.string dpid) ∧
    s.flowModNameToDpidIndex.get name = some dpid
  nonempty : ∀ dpid, s.dpidToFlowModNameIndex.get dpid ≠ some []

/-- Each entry is filed under its own name. -/
def Named : Prop := ∀ name entry, s.flowModMap.get name = some entry → entry.get "name" = some (.string name)

/-- The collection, if the database is connected, holds the documents of the entries, each once. -/
def Mirrors : Prop := ∀ documents, s.collection = some documents → documents.Nodup ∧
  ∀ document, document ∈ documents ↔ ∃ name entry, s.flowModMap.get name = some entry ∧ mapToDBObject entry = document

/-- A controller that starts with the collection comes to the same store. -/
def Rebuilds (order : HashOrder) : Prop := ∀ documents, s.collection = some documents →
  ∃ s', loadFlowModsFromDB order true (initial (some documents) s.flowTables) = (.ok (), s') ∧ s.SameStore s'

/-- The entries are made of their documents again. -/
def Survives : Prop := s.collection.isSome = true → ∀ name entry, s.flowModMap.get name = some entry →
  dbObjectToMap (mapToDBObject entry) = entry

/-- An entry is in no document of the collection. -/
def Lost (name : String) : Prop := s.flowModMap.containsKey name = true ∧ ∃ documents, s.collection = some documents ∧
  ∀ document ∈ documents, (dbObjectToMap document).get "name" ≠ some (.string name)

variable {s}

theorem consistent_initial (collection : Option (List Entry)) (flowTables : Dpid → τ) :
    (initial collection flowTables).Consistent where
  mem_iff _ := Iff.rfl
  listed_iff _ _ := ⟨fun ⟨_, h, _⟩ => (nomatch h), nofun⟩
  switch _ _ := nofun
  nonempty _ := nofun

/-- The name of an entry is not changed by the conversions. -/
theorem get_name_dbObjectToMap {entry : Entry} {name : String} (h : entry.get "name" = some (.string name)) :
    (mapToDBObject entry).get "name" = some (.string name) ∧
      (dbObjectToMap (mapToDBObject entry)).get "name" = some (.string name) := by
  have hplain : Plain "name" := by decide
  have hdocument : (mapToDBObject entry).get "name" = some (.string name) := by
    rw [get_mapToDBObject hplain, h]
    rfl
  refine ⟨hdocument, ?_⟩
  rw [get_dbObjectToMap hplain, hdocument]
  rfl

/-! ## Names in the database -/

/-- A document that gives back an entry is the document of that entry. -/
theorem survives_of_rebuilt (hnamed : s.Named) (hmirrors : s.Mirrors) {documents : List Entry}
    (hdocuments : s.collection = some documents) {name : String} {entry : Entry}
    (hentry : s.flowModMap.get name = some entry) {document : Entry} (hmem : document ∈ documents)
    (hrebuilt : dbObjectToMap document = entry) : dbObjectToMap (mapToDBObject entry) = entry := by
  obtain ⟨name', entry', hentry', rfl⟩ := ((hmirrors documents hdocuments).2 document).1 hmem
  have hname := hnamed name entry hentry
  rw [← hrebuilt, (get_name_dbObjectToMap (hnamed name' entry' hentry')).2] at hname
  obtain rfl : name' = name := by simpa using hname
  obtain rfl := Option.some.inj (hentry.symm.trans hentry')
  exact hrebuilt

/-- A mirrored entry is not lost. -/
theorem Mirrors.not_lost (h : s.Mirrors) (hnamed : s.Named) (name : String) : ¬s.Lost name := by
  rintro ⟨hcontains, documents, hdocuments, hnone⟩
  obtain ⟨entry, hentry⟩ := Option.isSome_iff_exists.1 hcontains
  have hmem := ((h documents hdocuments).2 _).2 ⟨name, entry, hentry, rfl⟩
  exact hnone _ hmem (get_name_dbObjectToMap (hnamed name entry hentry)).2

/-- The entries are filed, and the database is in step with them. -/
structure InStep (s : StaticFlowEntryStorage τ) : Prop where
  consistent : s.Consistent
  named : s.Named
  mirrors : s.Mirrors
  survives : s.Survives

/-- The entries are filed, but one of them is lost in the database. -/
structure OutOfStep (s : StaticFlowEntryStorage τ) (name : String) : Prop where
  consistent : s.Consistent
  named : s.Named
  lost : s.Lost name

theorem Consistent.outside (h : s.Consistent) (collection : Option (List Entry)) (flowTables : Dpid → τ)
    (attempts : ℕ) : Consistent { s with collection, flowTables, attempts } :=
  ⟨h.mem_iff, h.listed_iff, h.switch, h.nonempty⟩

theorem InStep.outside (h : s.InStep) (flowTables : Dpid → τ) (attempts : ℕ) :
    InStep { s with flowTables, attempts } := ⟨h.consistent.outside s.collection .., h.named, h.mirrors, h.survives⟩

theorem OutOfStep.outside {name : String} (h : s.OutOfStep name) (flowTables : Dpid → τ) (attempts : ℕ) :
    OutOfStep { s with flowTables, attempts } name := ⟨h.consistent.outside s.collection .., h.named, h.lost⟩

/-! ## Indices -/

theorem Consistent.deleteEntryFromIndices_eq (h : s.Consistent) {name dpid : String}
    (hdpid : s.flowModNameToDpidIndex.get name = some dpid) : s.deleteEntryFromIndices name = { s with
      dpidToFlowModNameIndex := s.dpidToFlowModNameIndex.erase dpid name
      flowModNameToDpidIndex := s.flowModNameToDpidIndex.remove name } := by
  obtain ⟨names, hnames, -⟩ := (h.listed_iff dpid name).2 hdpid
  unfold deleteEntryFromIndices
  rw [hdpid]
  dsimp only
  rw [hnames]

theorem Consistent.delete (h : s.Consistent) {name dpid : String}
    (hdpid : s.flowModNameToDpidIndex.get name = some dpid) : Consistent { s with
      flowModMap := s.flowModMap.remove name
      dpidToFlowModNameIndex := s.dpidToFlowModNameIndex.erase dpid name
      flowModNameToDpidIndex := s.flowModNameToDpidIndex.remove name } where
  mem_iff name' := by
    have hmem := h.mem_iff name'
    unfold HashMap.containsKey at hmem ⊢
    rw [HashMap.get_remove, HashMap.get_remove]
    split_ifs
    · rfl
    · exact hmem
  listed_iff dpid' name' := by
    rw [SetMap.has_erase, h.listed_iff, HashMap.get_remove]
    by_cases hname : name' = name
    · subst hname
      simp [hdpid, eq_comm]
    · simp [hname]
  switch name' entry hentry := by
    rw [HashMap.get_remove] at hentry ⊢
    split_ifs at hentry with hname
    rw [if_neg hname]
    exact h.switch name' entry hentry
  nonempty := SetMap.get_erase_ne_nil h.nonempty dpid name

theorem Consistent.insert (h : s.Consistent) {name dpid : String} {entry : Entry}
    (hnew : s.flowModMap.get name = none) (hdpid : entry.get "switch" = some (.string dpid)) : Consistent { s with
      flowModMap := s.flowModMap.put name entry
      dpidToFlowModNameIndex := s.dpidToFlowModNameIndex.add dpid name
      flowModNameToDpidIndex := s.flowModNameToDpidIndex.put name dpid } where
  mem_iff name' := by
    have hmem := h.mem_iff name'
    unfold HashMap.containsKey at hmem ⊢
    rw [HashMap.get_put, HashMap.get_put]
    split_ifs
    · rfl
    · exact hmem
  listed_iff dpid' name' := by
    have hmem := h.mem_iff name
    unfold HashMap.containsKey at hmem
    rw [hnew] at hmem
    have hnone : s.flowModNameToDpidIndex.get name = none :=
      Option.not_isSome_iff_eq_none.1 fun hsome => Bool.false_ne_true (hmem.2 hsome)
    rw [SetMap.has_add, h.listed_iff, HashMap.get_put]
    by_cases hname : name' = name
    · subst hname
      simp [hnone, eq_comm]
    · simp [hname]
  switch name' entry' hentry := by
    rw [HashMap.get_put] at hentry ⊢
    split_ifs at hentry with hname
    · obtain rfl := Option.some.inj hentry
      rw [if_pos hname]
      exact ⟨dpid, hdpid, rfl⟩
    · rw [if_neg hname]
      exact h.switch name' entry' hentry
  nonempty := SetMap.get_add_ne_nil h.nonempty dpid name

theorem Named.remove (h : s.Named) (name : String) {name' : String} {entry : Entry}
    (hentry : (s.flowModMap.remove name).get name' = some entry) : entry.get "name" = some (.string name') := by
  rw [HashMap.get_remove] at hentry
  split_ifs at hentry
  exact h name' entry hentry

theorem Named.put (h : s.Named) {name : String} {entry : Entry} (hname : entry.get "name" = some (.string name))
    {name' : String} {entry' : Entry} (hentry : (s.flowModMap.put name entry).get name' = some entry') :
    entry'.get "name" = some (.string name') := by
  rw [HashMap.get_put] at hentry
  split_ifs at hentry with heq
  · obtain rfl := Option.some.inj hentry
    rw [heq]
    exact hname
  · exact h name' entry' hentry

/-! ## The collection -/

section Collection

variable {finder : Finder} {around : Surroundings} {documents : List Entry} {name : String} {entry : Entry}
  {c : Option (List Entry)}

/-- A query for an entry finds no document but that of the entry. -/
theorem InStep.eq_of_finds (h : s.InStep) (hdocuments : s.collection = some documents)
    (hname : entry.get "name" = some (.string name)) {document : Entry} (hmem : document ∈ documents)
    (hfinds : finder.finds (mapToDBObject entry) document = true) :
    ∃ found, s.flowModMap.get name = some found ∧ document = mapToDBObject found := by
  obtain ⟨name', found, hfound, rfl⟩ := ((h.mirrors documents hdocuments).2 document).1 hmem
  obtain rfl : name = name' := finder.string_eq _ _ "name" _ _ hfinds (get_name_dbObjectToMap hname).1
    (get_name_dbObjectToMap (h.named name' found hfound)).1
  exact ⟨found, hfound, rfl⟩

theorem InStep.withoutEntry_eq (h : s.InStep) (hdocuments : s.collection = some documents)
    (hentry : s.flowModMap.get name = some entry) (hrest : withoutEntry finder around name (some documents) = some c) :
    ∃ rest, c = some rest ∧ rest.Nodup ∧
      ∀ document, document ∈ rest ↔ document ∈ documents ∧ document ≠ mapToDBObject entry := by
  obtain ⟨hnodup, hmem⟩ := h.mirrors documents hdocuments
  obtain ⟨query, hquery, hmap⟩ := Option.bind_eq_some_iff.1 hrest
  obtain ⟨rest, hfound, rfl⟩ := Option.map_eq_some_iff.1 hmap
  obtain rfl : query = entry := by
    unfold namedEntry at hquery
    split_ifs at hquery
    obtain ⟨hin, hname⟩ := firstNamed_some hquery
    obtain ⟨document, hdocument, rfl⟩ := List.mem_map.1 hin
    obtain ⟨name', entry', hentry', rfl⟩ := (hmem document).1 hdocument
    rw [(get_name_dbObjectToMap (h.named name' entry' hentry')).2] at hname
    obtain rfl : name' = name := by simpa using hname
    obtain rfl := Option.some.inj (hentry.symm.trans hentry')
    exact h.survives (by rw [hdocuments]; rfl) name' entry hentry
  have hself : mapToDBObject query ∈ documents := (hmem _).2 ⟨name, query, hentry, rfl⟩
  have hany : documents.any (finder.finds (mapToDBObject query)) = true :=
    List.any_eq_true.2 ⟨_, hself, finder.finds_self _⟩
  unfold withoutFound at hfound
  rw [if_pos hany] at hfound
  split_ifs at hfound
  obtain rfl := Option.some.inj hfound
  refine ⟨_, rfl, hnodup.filter _, fun document => ?_⟩
  rw [List.mem_filter]
  refine and_congr_right fun hdocument => ?_
  rw [Bool.not_eq_true', ← Bool.not_eq_true]
  refine not_congr ⟨fun hfinds => ?_, ?_⟩
  · obtain ⟨found, hget, rfl⟩ := h.eq_of_finds hdocuments (h.named name query hentry) hdocument hfinds
    obtain rfl := Option.some.inj (hentry.symm.trans hget)
    rfl
  · rintro rfl
    exact finder.finds_self _

theorem InStep.withEntry_eq (h : s.InStep) (hdocuments : s.collection = some documents)
    (hname : entry.get "name" = some (.string name)) (hnew : s.flowModMap.get name = none)
    (hrest : withEntry finder around entry (some documents) = some c) :
    around.counts = true ∧ c = some (if around.inserts then documents ++ [mapToDBObject entry] else documents) := by
  have hany : documents.any (finder.finds (mapToDBObject entry)) = false := by
    refine List.any_eq_false.2 fun document hmem hfinds => ?_
    obtain ⟨found, hfound, -⟩ := h.eq_of_finds hdocuments hname hmem hfinds
    rw [hnew] at hfound
    cases hfound
  unfold withEntry at hrest
  dsimp only at hrest
  rw [hany] at hrest
  split_ifs at hrest with hcounts hfound hinserts
  · cases hfound
  · exact ⟨hcounts, by rw [if_pos hinserts, Option.some.inj hrest]⟩
  · exact ⟨hcounts, by rw [if_neg hinserts, Option.some.inj hrest]⟩

theorem subset_of_withoutEntry (hrest : withoutEntry finder around name (some documents) = some c) :
    ∃ rest, c = some rest ∧ rest ⊆ documents := by
  obtain ⟨query, -, hmap⟩ := Option.bind_eq_some_iff.1 hrest
  obtain ⟨rest, hfound, rfl⟩ := Option.map_eq_some_iff.1 hmap
  refine ⟨rest, rfl, ?_⟩
  unfold withoutFound at hfound
  split_ifs at hfound
  · rw [← Option.some.inj hfound]
    exact fun document hmem => (List.mem_filter.1 hmem).1
  · rw [Option.some.inj hfound]
    exact List.Subset.refl _

theorem subset_of_withEntry (hrest : withEntry finder around entry (some documents) = some c) :
    ∃ rest, c = some rest ∧ rest ⊆ documents ++ [mapToDBObject entry] := by
  unfold withEntry at hrest
  dsimp only at hrest
  split_ifs at hrest <;> obtain rfl := Option.some.inj hrest
  · exact ⟨documents, rfl, List.subset_append_left ..⟩
  · exact ⟨_, rfl, List.Subset.refl _⟩
  · exact ⟨documents, rfl, List.subset_append_left ..⟩

/-- An entry that is lost is not deleted. -/
theorem Lost.withoutEntry_eq (h : s.Lost name) : withoutEntry finder around name s.collection = none := by
  obtain ⟨-, documents, hdocuments, hnone⟩ := h
  have hnamed : namedEntry around name documents = none := by
    unfold namedEntry
    split_ifs
    · refine Option.eq_none_iff_forall_not_mem.2 fun entry hentry => ?_
      obtain ⟨hmem, hname⟩ := firstNamed_some hentry
      obtain ⟨document, hdocument, rfl⟩ := List.mem_map.1 hmem
      exact hnone document hdocument hname
    · rfl
  rw [hdocuments]
  unfold withoutEntry
  dsimp only
  rw [hnamed]
  rfl

end Collection

end StaticFlowEntryStorage

/-! ## Deletions and insertions -/

namespace StaticFlowEntryManager

open StaticFlowEntryStorage

variable {φ τ : Type} {p : StaticFlowEntryManager φ τ} {s : StaticFlowEntryStorage τ} {name dpid : String}
  {entry : Entry} {w : Dpid × Option φ} {c : Option (List Entry)}

theorem sent_eq (w : Dpid × Option φ) (s : StaticFlowEntryStorage τ) :
    p.sent w s = { s with flowTables := (p.sent w s).flowTables } := by
  unfold sent
  cases w.2 <;> rfl

variable (p w c) in
theorem removed_eq (h : s.Consistent) (hdpid : s.flowModNameToDpidIndex.get name = some dpid) :
    ∃ flowTables, p.removed s name w c = {
      flowModMap := s.flowModMap.remove name
      dpidToFlowModNameIndex := s.dpidToFlowModNameIndex.erase dpid name
      flowModNameToDpidIndex := s.flowModNameToDpidIndex.remove name
      collection := c
      flowTables
      attempts := s.attempts + 1 } := by
  unfold removed
  rw [sent_eq]
  generalize (p.sent w { s with attempts := s.attempts + 1 }).flowTables = flowTables
  rw [(h.outside c flowTables (s.attempts + 1)).deleteEntryFromIndices_eq hdpid]
  exact ⟨flowTables, rfl⟩

variable (p s name entry dpid w c) in
theorem added_eq : ∃ flowTables, p.added s name entry dpid w c = {
      flowModMap := s.flowModMap.put name entry
      dpidToFlowModNameIndex := s.dpidToFlowModNameIndex.add dpid name
      flowModNameToDpidIndex := s.flowModNameToDpidIndex.put name dpid
      collection := c
      flowTables
      attempts := s.attempts + 1 } := by
  unfold added
  rw [sent_eq]
  exact ⟨_, rfl⟩

theorem inStep_removed (h : s.InStep) (hdpid : s.flowModNameToDpidIndex.get name = some dpid)
    (hrest : withoutEntry p.finder (p.around s.attempts) name s.collection = some c) :
    (p.removed s name w c).InStep := by
  obtain ⟨flowTables, heq⟩ := removed_eq p w c h.consistent hdpid
  have hcontains : s.flowModMap.containsKey name = true := by
    rw [h.consistent.mem_iff]
    unfold HashMap.containsKey
    rw [hdpid]
    rfl
  obtain ⟨entry, hentry⟩ := Option.isSome_iff_exists.1 hcontains
  rw [heq]
  refine ⟨(h.consistent.delete hdpid).outside c _ _, fun _ _ => h.named.remove name, ?_, ?_⟩
  · rintro documents' rfl
    cases hdocuments : s.collection with
    | none =>
      rw [hdocuments] at hrest
      cases hrest
    | some documents =>
      rw [hdocuments] at hrest
      obtain ⟨rest, hc, hnodup, hmem⟩ := h.withoutEntry_eq hdocuments hentry hrest
      obtain rfl := Option.some.inj hc
      refine ⟨hnodup, fun document => ?_⟩
      rw [hmem, (h.mirrors documents hdocuments).2]
      constructor
      · rintro ⟨⟨name', entry', hentry', rfl⟩, hne⟩
        refine ⟨name', entry', ?_, rfl⟩
        rw [HashMap.get_remove, if_neg]
        · exact hentry'
        · rintro rfl
          obtain rfl := Option.some.inj (hentry.symm.trans hentry')
          exact hne rfl
      · rintro ⟨name', entry', hentry', rfl⟩
        rw [HashMap.get_remove] at hentry'
        split_ifs at hentry' with hname
        refine ⟨⟨name', entry', hentry', rfl⟩, fun hdocument => hname ?_⟩
        have hsame := (get_name_dbObjectToMap (h.named name' entry' hentry')).1
        rw [hdocument, (get_name_dbObjectToMap (h.named name entry hentry)).1] at hsame
        simpa using hsame.symm
  · intro hsome name' entry' hentry'
    rw [HashMap.get_remove] at hentry'
    split_ifs at hentry'
    refine h.survives ?_ name' entry' hentry'
    cases hdocuments : s.collection with
    | none =>
      rw [hdocuments] at hrest
      obtain rfl := Option.some.inj hrest
      exact hsome
    | some documents => rfl

theorem inStep_added (h : s.InStep) (hname : entry.get "name" = some (.string name))
    (hdpid : entry.get "switch" = some (.string dpid)) (hnew : s.flowModMap.get name = none)
    (hrest : withEntry p.finder (p.around s.attempts) entry s.collection = some c)
    (hgood : s.collection.isSome = true → (p.around s.attempts).inserts = true ∧
      dbObjectToMap (mapToDBObject entry) = entry) : (p.added s name entry dpid w c).InStep := by
  obtain ⟨flowTables, heq⟩ := added_eq p s name dpid entry w c
  rw [heq]
  refine ⟨(h.consistent.insert hnew hdpid).outside c _ _, fun _ _ => h.named.put hname, ?_, ?_⟩
  · rintro documents' rfl
    cases hdocuments : s.collection with
    | none =>
      rw [hdocuments] at hrest
      cases hrest
    | some documents =>
      rw [hdocuments] at hrest hgood
      obtain ⟨hinserts, -⟩ := hgood rfl
      obtain ⟨-, hc⟩ := h.withEntry_eq hdocuments hname hnew hrest
      rw [if_pos hinserts] at hc
      obtain rfl := Option.some.inj hc
      obtain ⟨hnodup, hmem⟩ := h.mirrors documents hdocuments
      constructor
      · refine List.nodup_append.2 ⟨hnodup, List.nodup_singleton _, ?_⟩
        rintro document hdocument _ hsingle rfl
        obtain ⟨name', entry', hentry', hsame⟩ := (hmem document).1 hdocument
        obtain rfl := List.mem_singleton.1 hsingle
        have hname' := (get_name_dbObjectToMap (h.named name' entry' hentry')).1
        rw [hsame, (get_name_dbObjectToMap hname).1] at hname'
        obtain rfl : name = name' := by simpa using hname'
        rw [hnew] at hentry'
        cases hentry'
      · intro document
        rw [List.mem_append, List.mem_singleton, hmem]
        constructor
        · rintro (⟨name', entry', hentry', rfl⟩ | rfl)
          · refine ⟨name', entry', ?_, rfl⟩
            rw [HashMap.get_put, if_neg]
            · exact hentry'
            · rintro rfl
              rw [hnew] at hentry'
              cases hentry'
          · exact ⟨name, entry, HashMap.get_put_self .., rfl⟩
        · rintro ⟨name', entry', hentry', rfl⟩
          rw [HashMap.get_put] at hentry'
          split_ifs at hentry'
          · obtain rfl := Option.some.inj hentry'
            exact .inr rfl
          · exact .inl ⟨name', entry', hentry', rfl⟩
  · intro hsome name' entry' hentry'
    have hconnected : s.collection.isSome = true := by
      cases hdocuments : s.collection with
      | none =>
        rw [hdocuments] at hrest
        obtain rfl := Option.some.inj hrest
        exact hsome
      | some documents => rfl
    rw [HashMap.get_put] at hentry'
    split_ifs at hentry'
    · obtain rfl := Option.some.inj hentry'
      exact (hgood hconnected).2
    · exact h.survives hconnected name' entry' hentry'

theorem outOfStep_removed {lost : String} (h : s.OutOfStep lost)
    (hdpid : s.flowModNameToDpidIndex.get name = some dpid)
    (hrest : withoutEntry p.finder (p.around s.attempts) name s.collection = some c) :
    (p.removed s name w c).OutOfStep lost := by
  obtain ⟨flowTables, heq⟩ := removed_eq p w c h.consistent hdpid
  have hne : lost ≠ name := by
    rintro rfl
    rw [h.lost.withoutEntry_eq] at hrest
    cases hrest
  obtain ⟨hcontains, documents, hdocuments, hnone⟩ := h.lost
  rw [hdocuments] at hrest
  obtain ⟨rest, rfl, hsubset⟩ := subset_of_withoutEntry hrest
  rw [heq]
  refine ⟨(h.consistent.delete hdpid).outside (some rest) _ _, fun _ _ => h.named.remove name, ?_, rest, rfl,
    fun document hmem => hnone document (hsubset hmem)⟩
  unfold HashMap.containsKey at hcontains ⊢
  rwa [HashMap.get_remove, if_neg hne]

theorem outOfStep_added {lost : String} (h : s.OutOfStep lost) (hname : entry.get "name" = some (.string name))
    (hdpid : entry.get "switch" = some (.string dpid)) (hnew : s.flowModMap.get name = none)
    (hrest : withEntry p.finder (p.around s.attempts) entry s.collection = some c) :
    (p.added s name entry dpid w c).OutOfStep lost := by
  obtain ⟨flowTables, heq⟩ := added_eq p s name dpid entry w c
  obtain ⟨hcontains, documents, hdocuments, hnone⟩ := h.lost
  have hne : lost ≠ name := by
    rintro rfl
    unfold HashMap.containsKey at hcontains
    rw [hnew] at hcontains
    cases hcontains
  rw [hdocuments] at hrest
  obtain ⟨rest, rfl, hsubset⟩ := subset_of_withEntry hrest
  rw [heq]
  refine ⟨(h.consistent.insert hnew hdpid).outside (some rest) _ _, fun _ _ => h.named.put hname, ?_, rest, rfl,
    fun document hmem => ?_⟩
  · unfold HashMap.containsKey at hcontains ⊢
    rwa [HashMap.get_put, if_neg hne]
  · obtain hold | hsingle := List.mem_append.1 (hsubset hmem)
    · exact hnone document hold
    · obtain rfl := List.mem_singleton.1 hsingle
      rw [(get_name_dbObjectToMap hname).2]
      simpa using hne.symm

/-- An insertion that the database refuses. -/
theorem outOfStep_refused (h : s.InStep) (hname : entry.get "name" = some (.string name))
    (hdpid : entry.get "switch" = some (.string dpid)) (hnew : s.flowModMap.get name = none)
    (hconnected : s.collection.isSome = true) (hrefused : (p.around s.attempts).inserts = false)
    (hrest : withEntry p.finder (p.around s.attempts) entry s.collection = some c) :
    (p.added s name entry dpid w c).OutOfStep name := by
  obtain ⟨flowTables, heq⟩ := added_eq p s name dpid entry w c
  obtain ⟨documents, hdocuments⟩ := Option.isSome_iff_exists.1 hconnected
  rw [hdocuments] at hrest
  obtain ⟨-, rfl⟩ := h.withEntry_eq hdocuments hname hnew hrest
  rw [heq, hrefused]
  refine ⟨(h.consistent.insert hnew hdpid).outside (some documents) _ _, fun _ _ => h.named.put hname, ?_, documents,
    rfl, fun document hmem hdocument => ?_⟩
  · unfold HashMap.containsKey
    rw [HashMap.get_put_self]
    rfl
  · obtain ⟨name', entry', hentry', rfl⟩ := ((h.mirrors documents hdocuments).2 document).1 hmem
    rw [(get_name_dbObjectToMap (h.named name' entry' hentry')).2] at hdocument
    obtain rfl : name' = name := by simpa using hdocument
    rw [hnew] at hentry'
    cases hentry'

/-! ## What a call keeps -/

/-- An invariant of all deletions. -/
theorem keeps_deleteFlow {I : StaticFlowEntryStorage τ → Prop}
    (houtside : ∀ s flowTables attempts, I s → I { s with flowTables, attempts })
    (hremoved : ∀ s name dpid w c, I s → s.flowModNameToDpidIndex.get name = some dpid →
      withoutEntry p.finder (p.around s.attempts) name s.collection = some c → I (p.removed s name w c))
    (name : String) : Method.Keeps I (p.deleteFlow name) := by
  intro s h
  obtain ⟨dpid, w, c, hdpid, -, hrest, hflow⟩ | ⟨dpid, w, e, -, -, -, hflow⟩ | ⟨-, e, attempts, hflow⟩ :=
    deleteFlow_eq (p := p) name s
  · rw [hflow]
    obtain ⟨-, hprint⟩ | ⟨-, e, hprint⟩ := printDB_eq p (p.around s.attempts) (p.removed s name w c)
    · rw [hprint]
      exact hremoved s name dpid w c h hdpid hrest
    · rw [hprint]
      exact hremoved s name dpid w c h hdpid hrest
  · rw [hflow, sent_eq]
    exact houtside s _ _ h
  · rw [hflow]
    exact houtside s s.flowTables attempts h

/-- The store that an addition meets when it comes to the insertion. -/
def Comes (p : StaticFlowEntryManager φ τ) (s : StaticFlowEntryStorage τ) (name : String)
    (s₁ : StaticFlowEntryStorage τ) : Prop :=
  if s.flowModMap.containsKey name then
    ∃ dpid w c, s.flowModNameToDpidIndex.get name = some dpid ∧
      p.written (p.around s.attempts) (some dpid) .deleteStrict (s.flowModMap.get name) = some w ∧
      withoutEntry p.finder (p.around s.attempts) name s.collection = some c ∧
      p.Lists (p.around s.attempts) c ∧ s₁ = p.removed s name w c
  else s₁ = s

theorem deleteOld_eq (name : String) (s : StaticFlowEntryStorage τ) :
    (∃ s₁, p.deleteOld name s = (.ok (), s₁) ∧ p.Comes s name s₁) ∨
    ((∀ s₁, ¬p.Comes s name s₁) ∧ ∃ e s', p.deleteOld name s = (.error e, s')) := by
  unfold deleteOld Comes
  rw [Method.get_bind_apply]
  by_cases hcontains : s.flowModMap.containsKey name = true
  · rw [if_pos hcontains]
    simp only [if_pos hcontains]
    obtain ⟨dpid, w, c, hdpid, hwritten, hrest, hflow⟩ | ⟨dpid, w, e, hdpid, hwritten, hrest, hflow⟩ |
      ⟨hnone, e, attempts, hflow⟩ := deleteFlow_eq (p := p) name s
    · obtain ⟨hlists, hprint⟩ | ⟨hlists, e, hprint⟩ := printDB_eq p (p.around s.attempts) (p.removed s name w c)
      · rw [collection_removed] at hlists
        exact .inl ⟨_, hflow.trans hprint, dpid, w, c, hdpid, hwritten, hrest, hlists, rfl⟩
      · rw [collection_removed] at hlists
        refine .inr ⟨?_, e, _, hflow.trans hprint⟩
        rintro s₁ ⟨_, _, c', _, _, hrest', hlists', _⟩
        obtain rfl := Option.some.inj (hrest.symm.trans hrest')
        exact hlists hlists'
    · refine .inr ⟨?_, e, _, hflow⟩
      rintro s₁ ⟨_, _, _, _, _, hrest', _⟩
      rw [hrest] at hrest'
      cases hrest'
    · refine .inr ⟨?_, e, _, hflow⟩
      rintro s₁ ⟨dpid, w, _, hdpid, hwritten, _⟩
      rw [hdpid, Option.bind_some, hwritten] at hnone
      cases hnone
  · rw [if_neg hcontains]
    simp only [if_neg hcontains]
    exact .inl ⟨s, rfl, rfl⟩

/-- The entry can be written, and the database is asked to insert it. -/
def Inserts (p : StaticFlowEntryManager φ τ) (s₁ : StaticFlowEntryStorage τ) (entry : Entry)
    (dpid : Option String) : Prop :=
  s₁.collection.isSome = true ∧ p.written (p.around s₁.attempts) dpid .add (some entry) ≠ none ∧
    (p.around s₁.attempts).counts = true

/-- The database refuses the entry, which nobody looks at. -/
def Refused (p : StaticFlowEntryManager φ τ) (s : StaticFlowEntryStorage τ) (name : String) (entry : Entry)
    (dpid : Option String) : Prop :=
  ∃ s₁, p.Comes s name s₁ ∧ p.Inserts s₁ entry dpid ∧ (p.around s₁.attempts).inserts = false

/-- The database takes in an entry that is not made of its document again. -/
def Altered (p : StaticFlowEntryManager φ τ) (s : StaticFlowEntryStorage τ) (name : String) (entry : Entry)
    (dpid : Option String) : Prop :=
  ∃ s₁, p.Comes s name s₁ ∧ p.Inserts s₁ entry dpid ∧ dbObjectToMap (mapToDBObject entry) ≠ entry

theorem isSome_withoutEntry {finder : Finder} {around : Surroundings} {c c' : Option (List Entry)}
    (h : withoutEntry finder around name c = some c') : c'.isSome = c.isSome := by
  cases c with
  | none => rw [← Option.some.inj h]
  | some documents =>
    obtain ⟨rest, rfl, -⟩ := subset_of_withoutEntry h
    rfl

theorem isSome_withEntry {finder : Finder} {around : Surroundings} {c c' : Option (List Entry)}
    (h : withEntry finder around entry c = some c') : c'.isSome = c.isSome := by
  cases c with
  | none => rw [← Option.some.inj h]
  | some documents =>
    obtain ⟨rest, rfl, -⟩ := subset_of_withEntry h
    rfl

/-- In the store that the insertion meets, there is no entry of the name. -/
theorem get_of_comes {s₁ : StaticFlowEntryStorage τ} (h : p.Comes s name s₁) : s₁.flowModMap.get name = none := by
  unfold Comes at h
  split_ifs at h with hcontains
  · obtain ⟨_, _, _, _, _, _, _, rfl⟩ := h
    simp
  · rw [h]
    exact Option.not_isSome_iff_eq_none.1 hcontains

/-- An invariant of all calls, but for what some additions break. -/
theorem addFlow_invariant {I : StaticFlowEntryStorage τ → Prop}
    (houtside : ∀ s flowTables attempts, I s → I { s with flowTables, attempts })
    (hremoved : ∀ s name dpid w c, I s → s.flowModNameToDpidIndex.get name = some dpid →
      withoutEntry p.finder (p.around s.attempts) name s.collection = some c → I (p.removed s name w c))
    {dpid : Option String}
    (hadded : ∀ s₁ d w c, I s₁ → p.Comes s name s₁ → dpid = some d →
      p.written (p.around s₁.attempts) dpid .add (some entry) = some w →
      withEntry p.finder (p.around s₁.attempts) entry s₁.collection = some c → I (p.added s₁ name entry d w c))
    (hs : I s) : I (p.addFlow name entry dpid s).2 := by
  have hold : I (p.deleteOld name s).2 := by
    unfold deleteOld
    rw [Method.get_bind_apply]
    split_ifs
    · exact keeps_deleteFlow houtside hremoved name s hs
    · exact hs
  unfold addFlow
  obtain ⟨s₁, hdelete, hcomes⟩ | ⟨-, e, s', hdelete⟩ := deleteOld_eq (p := p) name s
  · rw [hdelete] at hold
    rw [Method.bind_ok hdelete]
    obtain ⟨d, w, c, rfl, hwritten, hrest, hpush⟩ | ⟨d, w, e, -, -, -, hpush⟩ | ⟨-, e, attempts, hpush⟩ :=
      pushFlow_eq (p := p) name entry dpid s₁
    · rw [hpush]
      have hadd := hadded s₁ d w c hold hcomes rfl hwritten hrest
      obtain ⟨-, hprint⟩ | ⟨-, e, hprint⟩ := printDB_eq p (p.around s₁.attempts) (p.added s₁ name entry d w c)
      · rw [hprint]
        exact hadd
      · rw [hprint]
        exact hadd
    · rw [hpush, sent_eq]
      exact houtside s₁ _ _ hold
    · rw [hpush]
      exact houtside s₁ s₁.flowTables attempts hold
  · rw [hdelete] at hold
    rw [Method.bind_error hdelete]
    exact hold

/-! ## In step and out of step -/

/-- The database is in step, and connected or not. -/
def InStepAt (connected : Bool) (s : StaticFlowEntryStorage τ) : Prop :=
  s.InStep ∧ s.collection.isSome = connected

/-- Some entry is lost. -/
def Lacks (s : StaticFlowEntryStorage τ) : Prop := ∃ name, s.OutOfStep name

section Steps

variable {connected : Bool} {dpid : Option String}

theorem inStepAt_outside (s : StaticFlowEntryStorage τ) (flowTables : Dpid → τ) (attempts : ℕ)
    (h : InStepAt connected s) : InStepAt connected { s with flowTables, attempts } :=
  ⟨h.1.outside flowTables attempts, h.2⟩

theorem inStepAt_removed (s : StaticFlowEntryStorage τ) (name dpid : String) (w : Dpid × Option φ)
    (c : Option (List Entry)) (h : InStepAt connected s) (hdpid : s.flowModNameToDpidIndex.get name = some dpid)
    (hrest : withoutEntry p.finder (p.around s.attempts) name s.collection = some c) :
    InStepAt connected (p.removed s name w c) :=
  ⟨inStep_removed h.1 hdpid hrest, by rw [collection_removed, isSome_withoutEntry hrest, h.2]⟩

theorem lacks_outside (s : StaticFlowEntryStorage τ) (flowTables : Dpid → τ) (attempts : ℕ) (h : Lacks s) :
    Lacks { s with flowTables, attempts } :=
  h.imp fun _ h => h.outside flowTables attempts

theorem lacks_removed (s : StaticFlowEntryStorage τ) (name dpid : String) (w : Dpid × Option φ)
    (c : Option (List Entry)) (h : Lacks s) (hdpid : s.flowModNameToDpidIndex.get name = some dpid)
    (hrest : withoutEntry p.finder (p.around s.attempts) name s.collection = some c) :
    Lacks (p.removed s name w c) :=
  h.imp fun _ h => outOfStep_removed h hdpid hrest

theorem inStepAt_of_comes {s₁ : StaticFlowEntryStorage τ} (h : InStepAt connected s) (hcomes : p.Comes s name s₁) :
    InStepAt connected s₁ := by
  unfold Comes at hcomes
  split_ifs at hcomes
  · obtain ⟨_, _, _, hdpid, _, hrest, _, rfl⟩ := hcomes
    exact inStepAt_removed s name _ _ _ h hdpid hrest
  · rw [hcomes]
    exact h

theorem addFlow_inStepAt (h : InStepAt connected s) (hname : entry.get "name" = some (.string name))
    (hdpid : ∀ d, dpid = some d → entry.get "switch" = some (.string d)) (hrefused : ¬p.Refused s name entry dpid)
    (haltered : ¬p.Altered s name entry dpid) : InStepAt connected (p.addFlow name entry dpid s).2 := by
  refine addFlow_invariant inStepAt_outside inStepAt_removed ?_ h
  intro s₁ d w c h₁ hcomes hd hwritten hrest
  refine ⟨inStep_added h₁.1 hname (hdpid d hd) (get_of_comes hcomes) hrest fun hsome => ?_,
    by rw [collection_added, isSome_withEntry hrest, h₁.2]⟩
  obtain ⟨documents, hdocuments⟩ := Option.isSome_iff_exists.1 hsome
  have hcounts := (h₁.1.withEntry_eq hdocuments hname (get_of_comes hcomes) (hdocuments ▸ hrest)).1
  have hinserts : p.Inserts s₁ entry dpid := ⟨hsome, by rw [hwritten]; exact nofun, hcounts⟩
  constructor
  · exact Bool.eq_true_of_not_eq_false fun hno => hrefused ⟨s₁, hcomes, hinserts, hno⟩
  · by_contra hne
    exact haltered ⟨s₁, hcomes, hinserts, hne⟩

theorem comes_unique {s₁ s₂ : StaticFlowEntryStorage τ} (h₁ : p.Comes s name s₁) (h₂ : p.Comes s name s₂) :
    s₁ = s₂ := by
  unfold Comes at h₁ h₂
  split_ifs at h₁ h₂
  · obtain ⟨d, w, c, hd, hw, hc, -, rfl⟩ := h₁
    obtain ⟨d', w', c', hd', hw', hc', -, rfl⟩ := h₂
    obtain rfl := Option.some.inj (hd.symm.trans hd')
    obtain rfl := Option.some.inj (hw.symm.trans hw')
    obtain rfl := Option.some.inj (hc.symm.trans hc')
    rfl
  · rw [h₁, h₂]

/-- An addition that comes to the database is completed, up to the listing. -/
theorem addFlow_inserts {s₁ : StaticFlowEntryStorage τ} (hcomes : p.Comes s name s₁)
    (hinserts : p.Inserts s₁ entry dpid) : ∃ d w c, dpid = some d ∧
      withEntry p.finder (p.around s₁.attempts) entry s₁.collection = some c ∧
      (p.addFlow name entry dpid s).2 = p.added s₁ name entry d w c := by
  obtain ⟨hsome, hwritten, hcounts⟩ := hinserts
  unfold addFlow
  obtain ⟨s₂, hdelete, hcomes₂⟩ | ⟨hnone, -⟩ := deleteOld_eq (p := p) name s
  · obtain rfl := comes_unique hcomes hcomes₂
    rw [Method.bind_ok hdelete]
    obtain ⟨d, w, c, rfl, hwritten, hrest, hpush⟩ | ⟨d, w, e, rfl, -, hrest, -⟩ | ⟨hnone, -⟩ :=
      pushFlow_eq (p := p) name entry dpid s₁
    · refine ⟨d, w, c, rfl, hrest, ?_⟩
      rw [hpush]
      obtain ⟨-, hprint⟩ | ⟨-, e, hprint⟩ := printDB_eq p (p.around s₁.attempts) (p.added s₁ name entry d w c)
      · rw [hprint]
      · rw [hprint]
    · obtain ⟨documents, hdocuments⟩ := Option.isSome_iff_exists.1 hsome
      rw [hdocuments] at hrest
      unfold withEntry at hrest
      dsimp only at hrest
      rw [if_pos hcounts] at hrest
      split_ifs at hrest
    · exact absurd hnone hwritten
  · exact absurd hcomes (hnone s₁)

theorem addFlow_refused (h : InStepAt connected s) (hname : entry.get "name" = some (.string name))
    (hdpid : ∀ d, dpid = some d → entry.get "switch" = some (.string d)) (hrefused : p.Refused s name entry dpid) :
    Lacks (p.addFlow name entry dpid s).2 := by
  obtain ⟨s₁, hcomes, hinserts, hno⟩ := hrefused
  obtain ⟨d, w, c, hd, hrest, heq⟩ := addFlow_inserts hcomes hinserts
  rw [heq]
  exact ⟨name, outOfStep_refused (inStepAt_of_comes h hcomes).1 hname (hdpid d hd) (get_of_comes hcomes) hinserts.1
    hno hrest⟩

theorem keeps_inStepAt_deleteFlow (name : String) : Method.Keeps (InStepAt connected) (p.deleteFlow name) :=
  keeps_deleteFlow inStepAt_outside inStepAt_removed name

end Steps

/-! ## Requests and reloads -/

theorem castString_some {v : Option Value} {text : String} :
    castString v = some (some text) ↔ v = some (.string text) := by
  cases v with
  | none => simp [castString]
  | some v => cases v <;> simp [castString]

theorem reloadFlowMod_eq (flowName : String) (entry : Option Entry) (s : StaticFlowEntryStorage τ) :
    (∃ e d id, entry = some e ∧ e.get "switch" = some (.string d) ∧ parseDpid d = some id ∧
      ((p.around s.attempts).getSwitch id).isSome = true ∧
      p.reloadFlowMod flowName entry s = p.addFlow flowName e (some d) { s with attempts := s.attempts + 1 }) ∨
    (p.reloadFlowMod flowName entry s).2 = { s with attempts := s.attempts + 1 } := by
  have hmeet : p.meet s = (.ok (p.around s.attempts), { s with attempts := s.attempts + 1 }) := rfl
  unfold reloadFlowMod
  rw [Method.bind_ok hmeet]
  cases entry with
  | none => exact .inr rfl
  | some e =>
  rw [Method.nonNull_some, Method.pure_bind]
  cases hswitch : (e.get "switch").bind Value.asString with
  | none => exact .inr rfl
  | some d =>
  rw [Method.nonNull_some, Method.pure_bind]
  cases hid : parseDpid d with
  | none => exact .inr rfl
  | some id =>
  rw [Method.nonNull_some, Method.pure_bind]
  split_ifs with hsome
  · refine .inl ⟨e, d, id, rfl, ?_, hid, hsome, rfl⟩
    obtain ⟨v, hv, hd⟩ := Option.bind_eq_some_iff.1 hswitch
    cases v with
    | string d' =>
      obtain rfl := Option.some.inj hd
      exact hv
    | null | boolean | number | list | map => cases hd
  · exact .inr rfl

/-! ## Invariants of all calls -/

/-- What deletions and insertions keep, whatever happens outside. -/
structure Invariant (p : StaticFlowEntryManager φ τ) (I : StaticFlowEntryStorage τ → Prop) : Prop where
  named : ∀ s, I s → s.Named
  outside : ∀ s flowTables attempts, I s → I { s with flowTables, attempts }
  removed : ∀ s name dpid w c, I s → s.flowModNameToDpidIndex.get name = some dpid →
    withoutEntry p.finder (p.around s.attempts) name s.collection = some c → I (p.removed s name w c)
  added : ∀ s name entry dpid w c, I s → entry.get "name" = some (.string name) →
    entry.get "switch" = some (.string dpid) → s.flowModMap.get name = none →
    withEntry p.finder (p.around s.attempts) entry s.collection = some c → I (p.added s name entry dpid w c)

theorem invariant_filed : p.Invariant fun s => s.Consistent ∧ s.Named where
  named _ h := h.2
  outside s _ _ h := ⟨h.1.outside s.collection .., h.2⟩
  removed s name dpid w c h hdpid _ := by
    obtain ⟨flowTables, heq⟩ := removed_eq p w c h.1 hdpid
    rw [heq]
    exact ⟨(h.1.delete hdpid).outside c _ _, fun _ _ => h.2.remove name⟩
  added s name entry dpid w c h hname hdpid hnew _ := by
    obtain ⟨flowTables, heq⟩ := added_eq p s name dpid entry w c
    rw [heq]
    exact ⟨(h.1.insert hnew hdpid).outside c _ _, fun _ _ => h.2.put hname⟩

theorem invariant_lacks : p.Invariant Lacks where
  named _ h := h.choose_spec.named
  outside := lacks_outside
  removed := lacks_removed
  added _ _ _ _ _ _ h hname hdpid hnew hrest := h.imp fun _ h => outOfStep_added h hname hdpid hnew hrest

namespace Invariant

variable {I : StaticFlowEntryStorage τ → Prop}

theorem deleteFlow (h : p.Invariant I) (name : String) : Method.Keeps I (p.deleteFlow name) :=
  keeps_deleteFlow h.outside h.removed name

theorem addFlow (h : p.Invariant I) {dpid : Option String} (hname : entry.get "name" = some (.string name))
    (hdpid : ∀ d, dpid = some d → entry.get "switch" = some (.string d)) :
    Method.Keeps I (p.addFlow name entry dpid) := fun _ hs =>
  addFlow_invariant h.outside h.removed (fun s₁ d w c h₁ hcomes hd _ hrest =>
    h.added s₁ name entry d w c h₁ hname (hdpid d hd) (get_of_comes hcomes) hrest) hs

theorem reloadFlowMod (h : p.Invariant I) (flowName : String) {entry : Option Entry}
    (hname : ∀ e, entry = some e → e.get "name" = some (.string flowName)) :
    Method.Keeps I (p.reloadFlowMod flowName entry) := by
  intro s hs
  have hmet : I { s with attempts := s.attempts + 1 } := h.outside s s.flowTables (s.attempts + 1) hs
  obtain ⟨e, d, id, he, hswitch, hid, hsome, heq⟩ | heq := reloadFlowMod_eq (p := p) flowName entry s
  · rw [heq]
    refine h.addFlow (hname e he) ?_ _ hmet
    rintro d' hd'
    obtain rfl := Option.some.inj hd'
    exact hswitch
  · rw [heq]
    exact hmet

theorem reloadFlowModsToSwitch (h : p.Invariant I) (dpid : String) :
    Method.Keeps I (p.reloadFlowModsToSwitch dpid) := by
  intro s hs
  unfold StaticFlowEntryManager.reloadFlowModsToSwitch
  rw [Method.get_bind_apply]
  cases hnames : s.dpidToFlowModNameIndex.get dpid with
  | none => exact hs
  | some names =>
    rw [Method.nonNull_some, Method.pure_bind]
    exact Method.keeps_forEach (fun flowName => h.reloadFlowMod flowName (h.named s hs flowName)) _ s hs

/-- An invariant holds behind every call. -/
theorem handle (h : p.Invariant I) (call : StaticFlowCall) : Method.Keeps I (p.handle call) := by
  intro s hs
  cases call with
  | addFlow entry =>
    show I (p.post entry s).2
    unfold post
    cases hname : castString (entry.get "name") with
    | none => exact hs
    | some flowName =>
    rw [Method.nonNull_some, Method.pure_bind]
    cases flowName with
    | none => exact hs
    | some flowName =>
    dsimp only
    cases hdpid : castString (entry.get "switch") with
    | none => exact hs
    | some dpid =>
    rw [Method.nonNull_some, Method.pure_bind]
    refine h.addFlow (castString_some.1 hname) (fun d hd => castString_some.1 ?_) s hs
    rw [hdpid, hd]
  | deleteFlow name => exact h.deleteFlow name s hs
  | deleteFlowsForSwitch dpid =>
    show I (p.deleteFlowsForSwitch dpid s).2
    unfold deleteFlowsForSwitch
    rw [Method.get_bind_apply]
    cases s.dpidToFlowModNameIndex.get dpid with
    | none => exact hs
    | some nameset =>
      rw [Method.nonNull_some, Method.pure_bind]
      exact Method.keeps_forEachIn _ nameset h.deleteFlow _ s hs
  | deleteAllFlows =>
    show I (p.deleteAllFlows s).2
    unfold deleteAllFlows
    rw [Method.get_bind_apply]
    exact Method.keeps_forEachIn _ _ h.deleteFlow _ s hs
  | reloadFlowsToSwitch dpid => exact h.reloadFlowModsToSwitch dpid s hs
  | reloadAllFlowsToSwitch =>
    show I (p.reloadAllFlowModsToSwitch s).2
    unfold reloadAllFlowModsToSwitch
    rw [Method.get_bind_apply]
    exact Method.keeps_forEach h.reloadFlowModsToSwitch _ s hs

end Invariant

/-! ## Refused reloads -/

/-- An entry of the storage that is added again is refused. -/
def ReloadRefused (p : StaticFlowEntryManager φ τ) (entries : String → Option Entry) (flowName : String)
    (s : StaticFlowEntryStorage τ) : Prop :=
  ∃ entry d id, entries flowName = some entry ∧ entry.get "switch" = some (.string d) ∧ parseDpid d = some id ∧
    ((p.around s.attempts).getSwitch id).isSome = true ∧
    p.Refused { s with attempts := s.attempts + 1 } flowName entry (some d)

/-- An entry of a switch is refused when it is added again. -/
def ReloadRefuses (p : StaticFlowEntryManager φ τ) (dpid : String) (s : StaticFlowEntryStorage τ) : Prop :=
  ∃ names, s.dpidToFlowModNameIndex.get dpid = some names ∧
    Method.Meets (fun flowName => p.reloadFlowMod flowName (s.flowModMap.get flowName))
      (p.ReloadRefused s.flowModMap.get) (p.order.iter names) s

section Reloads

variable {connected : Bool}

/-- An entry that is stored is added again as it was. -/
theorem reloadFlowMod_inStepAt {s₀ : StaticFlowEntryStorage τ} (h₀ : InStepAt connected s₀) (flowName : String)
    (s : StaticFlowEntryStorage τ) (h : InStepAt connected s)
    (hrefused : ¬p.ReloadRefused s₀.flowModMap.get flowName s) :
    InStepAt connected (p.reloadFlowMod flowName (s₀.flowModMap.get flowName) s).2 := by
  have hmet : InStepAt connected { s with attempts := s.attempts + 1 } :=
    inStepAt_outside s s.flowTables (s.attempts + 1) h
  obtain ⟨e, d, id, he, hswitch, hid, hsome, heq⟩ | heq :=
    reloadFlowMod_eq (p := p) flowName (s₀.flowModMap.get flowName) s
  · rw [heq]
    refine addFlow_inStepAt hmet (h₀.1.named flowName e he) ?_ ?_ ?_
    · rintro d' hd'
      obtain rfl := Option.some.inj hd'
      exact hswitch
    · exact fun hr => hrefused ⟨e, d, id, he, hswitch, hid, hsome, hr⟩
    · rintro ⟨s₁, hcomes, hinserts, hne⟩
      refine hne (h₀.1.survives ?_ flowName e he)
      rw [h₀.2, ← (inStepAt_of_comes hmet hcomes).2]
      exact hinserts.1
  · rw [heq]
    exact hmet

theorem reloadFlowMod_lacks {s₀ : StaticFlowEntryStorage τ} (h₀ : InStepAt connected s₀) (flowName : String)
    (s : StaticFlowEntryStorage τ) (h : InStepAt connected s)
    (hrefused : p.ReloadRefused s₀.flowModMap.get flowName s) :
    Lacks (p.reloadFlowMod flowName (s₀.flowModMap.get flowName) s).2 := by
  have hmet : InStepAt connected { s with attempts := s.attempts + 1 } :=
    inStepAt_outside s s.flowTables (s.attempts + 1) h
  obtain ⟨e, d, id, he, hswitch, hid, hsome, hr⟩ := hrefused
  have heq : p.reloadFlowMod flowName (s₀.flowModMap.get flowName) s =
      p.addFlow flowName e (some d) { s with attempts := s.attempts + 1 } := by
    have hmeet : p.meet s = (.ok (p.around s.attempts), { s with attempts := s.attempts + 1 }) := rfl
    unfold reloadFlowMod
    rw [Method.bind_ok hmeet, he, Method.nonNull_some, Method.pure_bind, hswitch]
    show (Method.nonNull (some d) >>= _) _ = _
    rw [Method.nonNull_some, Method.pure_bind, hid, Method.nonNull_some, Method.pure_bind, if_pos hsome]
  rw [heq]
  refine addFlow_refused hmet (h₀.1.named flowName e he) ?_ hr
  rintro d' hd'
  obtain rfl := Option.some.inj hd'
  exact hswitch

theorem reloadFlowModsToSwitch_inStepAt (dpid : String) (s : StaticFlowEntryStorage τ) (h : InStepAt connected s)
    (hrefuses : ¬p.ReloadRefuses dpid s) : InStepAt connected (p.reloadFlowModsToSwitch dpid s).2 := by
  unfold reloadFlowModsToSwitch
  rw [Method.get_bind_apply]
  cases hnames : s.dpidToFlowModNameIndex.get dpid with
  | none => exact h
  | some names =>
    rw [Method.nonNull_some, Method.pure_bind]
    exact Method.forEach_of_not_meets (reloadFlowMod_inStepAt h) h fun hmeets => hrefuses ⟨names, hnames, hmeets⟩

theorem reloadFlowModsToSwitch_lacks (dpid : String) (s : StaticFlowEntryStorage τ) (h : InStepAt connected s)
    (hrefuses : p.ReloadRefuses dpid s) : Lacks (p.reloadFlowModsToSwitch dpid s).2 := by
  obtain ⟨names, hnames, hmeets⟩ := hrefuses
  unfold reloadFlowModsToSwitch
  rw [Method.get_bind_apply, hnames, Method.nonNull_some, Method.pure_bind]
  exact Method.forEach_of_meets (reloadFlowMod_inStepAt h) (reloadFlowMod_lacks h)
    (fun flowName => invariant_lacks.reloadFlowMod flowName (h.1.named flowName)) h hmeets

end Reloads

/-! ## Calls -/

/-- A call that gets the database out of step. -/
def Fails (p : StaticFlowEntryManager φ τ) (s : StaticFlowEntryStorage τ) : StaticFlowCall → Prop
  | .addFlow entry => ∃ name dpid, entry.get "name" = some (.string name) ∧
    castString (entry.get "switch") = some dpid ∧ (p.Refused s name entry dpid ∨ p.Altered s name entry dpid)
  | .reloadFlowsToSwitch dpid => p.ReloadRefuses dpid s
  | .reloadAllFlowsToSwitch => Method.Meets p.reloadFlowModsToSwitch p.ReloadRefuses
    (p.order.iter s.dpidToFlowModNameIndex.keySet) s
  | .deleteFlow _ => False
  | .deleteFlowsForSwitch _ => False
  | .deleteAllFlows => False

variable {connected : Bool}

/-- A call that does not fail so keeps the database in step. -/
theorem step_inStepAt (h : InStepAt connected s) {call : StaticFlowCall} (hfails : ¬p.Fails s call) :
    InStepAt connected (p.step s call) := by
  cases call with
  | addFlow entry =>
    show InStepAt connected (p.post entry s).2
    unfold Fails at hfails
    push Not at hfails
    unfold post
    cases hname : castString (entry.get "name") with
    | none => exact h
    | some flowName =>
    rw [Method.nonNull_some, Method.pure_bind]
    cases flowName with
    | none => exact h
    | some flowName =>
    dsimp only
    cases hdpid : castString (entry.get "switch") with
    | none => exact h
    | some dpid =>
    rw [Method.nonNull_some, Method.pure_bind]
    obtain ⟨hrefused, haltered⟩ := hfails flowName dpid (castString_some.1 hname) hdpid
    refine addFlow_inStepAt h (castString_some.1 hname) (fun d hd => castString_some.1 ?_) hrefused haltered
    rw [hdpid, hd]
  | deleteFlow name => exact keeps_inStepAt_deleteFlow name s h
  | deleteFlowsForSwitch dpid =>
    show InStepAt connected (p.deleteFlowsForSwitch dpid s).2
    unfold deleteFlowsForSwitch
    rw [Method.get_bind_apply]
    cases s.dpidToFlowModNameIndex.get dpid with
    | none => exact h
    | some nameset =>
      rw [Method.nonNull_some, Method.pure_bind]
      exact Method.keeps_forEachIn _ nameset keeps_inStepAt_deleteFlow _ s h
  | deleteAllFlows =>
    show InStepAt connected (p.deleteAllFlows s).2
    unfold deleteAllFlows
    rw [Method.get_bind_apply]
    exact Method.keeps_forEachIn _ _ keeps_inStepAt_deleteFlow _ s h
  | reloadFlowsToSwitch dpid => exact reloadFlowModsToSwitch_inStepAt dpid s h hfails
  | reloadAllFlowsToSwitch =>
    show InStepAt connected (p.reloadAllFlowModsToSwitch s).2
    unfold reloadAllFlowModsToSwitch
    rw [Method.get_bind_apply]
    exact Method.forEach_of_not_meets reloadFlowModsToSwitch_inStepAt h hfails

/-- A call that fails so loses an entry, or stores one that is not made of its document again. -/
theorem step_fails (h : InStepAt connected s) {call : StaticFlowCall} (hfails : p.Fails s call) :
    Lacks (p.step s call) ∨ ∃ name entry, (p.step s call).flowModMap.get name = some entry ∧
      (p.step s call).collection.isSome = true ∧ dbObjectToMap (mapToDBObject entry) ≠ entry := by
  cases call with
  | addFlow entry =>
    obtain ⟨name, dpid, hname, hdpid, hfails⟩ := hfails
    have hstep : p.step s (.addFlow entry) = (p.addFlow name entry dpid s).2 := by
      show (p.post entry s).2 = _
      unfold post
      rw [castString_some.2 hname, Method.nonNull_some, Method.pure_bind]
      dsimp only
      rw [hdpid, Method.nonNull_some, Method.pure_bind]
    have hswitch : ∀ d, dpid = some d → entry.get "switch" = some (.string d) := fun d hd =>
      castString_some.1 (hdpid.trans (congrArg some hd))
    rw [hstep]
    obtain hrefused | ⟨s₁, hcomes, hinserts, hne⟩ := hfails
    · exact .inl (addFlow_refused h hname hswitch hrefused)
    · obtain ⟨d, w, c, hd, hrest, heq⟩ := addFlow_inserts hcomes hinserts
      refine .inr ⟨name, entry, ?_, ?_, hne⟩
      · rw [heq, flowModMap_added, HashMap.get_put_self]
      · rw [heq, collection_added, isSome_withEntry hrest]
        exact hinserts.1
  | deleteFlow name => exact hfails.elim
  | deleteFlowsForSwitch dpid => exact hfails.elim
  | deleteAllFlows => exact hfails.elim
  | reloadFlowsToSwitch dpid => exact .inl (reloadFlowModsToSwitch_lacks dpid s h hfails)
  | reloadAllFlowsToSwitch =>
    refine .inl ?_
    show Lacks (p.reloadAllFlowModsToSwitch s).2
    unfold reloadAllFlowModsToSwitch
    rw [Method.get_bind_apply]
    exact Method.forEach_of_meets reloadFlowModsToSwitch_inStepAt reloadFlowModsToSwitch_lacks
      invariant_lacks.reloadFlowModsToSwitch h hfails

end StaticFlowEntryManager

end Torpedo
