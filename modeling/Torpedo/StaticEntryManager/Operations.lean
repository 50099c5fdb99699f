import Torpedo.StaticEntryManager.Manager

/-!
# What the operations do

A deletion and an insertion have three stages: the flow-mod is written, the database changes, the maps change. What
each stage does is read off the storage and the surroundings (`written`, `withoutEntry`, `withEntry`).
-/

namespace Torpedo

open StorageConverter

namespace StaticFlowEntryStorage

variable {τ : Type} (finder : Finder) (around : Surroundings)

/-! ## The database -/

/-- The loop of `getDBEntry` comes to an entry. -/
def firstNamed (name : String) : List Entry → Option Entry
  | [] => none
  | entry :: entries =>
    (entry.get "name").bind fun entryName =>
      if entryName.asString = some name then some entry else firstNamed name entries

theorem firstNamed_some {name : String} {entries : List Entry} {entry : Entry}
    (h : firstNamed name entries = some entry) : entry ∈ entries ∧ entry.get "name" = some (.string name) := by
  induction entries with
  | nil => cases h
  | cons e entries ih =>
    obtain ⟨entryName, hname, h⟩ := Option.bind_eq_some_iff.1 h
    split_ifs at h with heq
    · obtain rfl := Option.some.inj h
      refine ⟨List.mem_cons_self, hname.trans (congrArg some ?_)⟩
      cases entryName <;> cases heq
      rfl
    · exact ⟨List.mem_cons_of_mem _ (ih h).1, (ih h).2⟩

/-- What `getDBEntry` gets, if it does not throw. -/
def namedEntry (name : String) (documents : List Entry) : Option Entry :=
  if around.retrieves then firstNamed name (documents.map dbObjectToMap) else none

/-- The collection without what `delete` removes, if it does not throw. -/
def withoutFound (query : Entry) (documents : List Entry) : Option (List Entry) :=
  if around.counts then
    if documents.any (finder.finds (mapToDBObject query)) then
      if around.removes then some (documents.filter (!finder.finds (mapToDBObject query) ·)) else none
    else some documents
  else none

/-- The collection without an entry, if no step of `deleteDBEntry` fails. -/
def withoutEntry (name : String) : Option (List Entry) → Option (Option (List Entry))
  | none => some none
  | some documents =>
    (namedEntry around name documents).bind fun entry => (withoutFound finder around entry documents).map some

/-- The collection behind `insertDBEntry`, if it does not throw. -/
def withEntry (entry : Entry) : Option (List Entry) → Option (Option (List Entry))
  | none => some none
  | some documents =>
    if around.counts then
      if documents.any (finder.finds (mapToDBObject entry)) then some (some documents)
      else if around.inserts then some (some (documents ++ [mapToDBObject entry]))
      else some (some documents)
    else none

variable {finder around} {s : StaticFlowEntryStorage τ}

theorem findEntry_eq (name : String) (entries : List Entry) (s : StaticFlowEntryStorage τ) :
    (∃ entry, firstNamed name entries = some entry ∧ findEntry name entries s = (.ok (some entry), s)) ∨
    firstNamed name entries = none ∧
      (findEntry name entries s = (.ok none, s) ∨ ∃ e, findEntry name entries s = (.error e, s)) := by
  induction entries with
  | nil => exact .inr ⟨rfl, .inl rfl⟩
  | cons e entries ih =>
    unfold firstNamed findEntry
    cases e.get "name" with
    | none => exact .inr ⟨rfl, .inr ⟨_, rfl⟩⟩
    | some entryName =>
      rw [Method.nonNull_some, Method.pure_bind, Option.bind_some]
      split_ifs
      · exact .inl ⟨e, rfl, rfl⟩
      · exact ih

theorem collection_eq {documents : List Entry} (h : s.collection = some documents) :
    { s with collection := some documents } = s := by
  rw [← h]

theorem delete_apply {query : Entry} {documents : List Entry} (hdocuments : s.collection = some documents) :
    (∀ rest, withoutFound finder around query documents = some rest →
      ∃ b, delete finder around query s = (.ok b, { s with collection := some rest })) ∧
    (withoutFound finder around query documents = none → ∃ e, delete finder around query s = (.error e, s)) := by
  unfold delete withoutFound
  rw [Method.get_bind_apply, hdocuments]
  dsimp only
  split_ifs
  · exact ⟨fun rest hrest => ⟨true, by cases hrest; rfl⟩, nofun⟩
  · exact ⟨nofun, fun _ => ⟨_, rfl⟩⟩
  · refine ⟨fun rest hrest => ⟨false, ?_⟩, nofun⟩
    cases hrest
    rw [collection_eq hdocuments]
    rfl
  · exact ⟨nofun, fun _ => ⟨_, rfl⟩⟩

theorem getDBEntry_eq (around : Surroundings) (name : String) {documents : List Entry} (hdocuments : s.collection = some documents) :
    (∃ entry, namedEntry around name documents = some entry ∧ getDBEntry around name s = (.ok (some entry), s)) ∨
    namedEntry around name documents = none ∧
      (getDBEntry around name s = (.ok none, s) ∨ ∃ e, getDBEntry around name s = (.error e, s)) := by
  unfold namedEntry getDBEntry
  have hall : getAllDBEntries around.retrieves s =
      (if around.retrieves then .ok (documents.map dbObjectToMap) else .error .exception, s) := by
    unfold getAllDBEntries
    rw [Method.get_bind_apply, hdocuments]
    cases around.retrieves <;> rfl
  split_ifs at hall ⊢ with hretrieves
  · rw [Method.bind_ok hall]
    exact findEntry_eq name _ s
  · exact .inr ⟨rfl, .inr ⟨_, Method.bind_error hall⟩⟩

theorem deleteDBEntry_some {name : String} {c : Option (List Entry)}
    (h : withoutEntry finder around name s.collection = some c) :
    deleteDBEntry finder around name s = (.ok true, { s with collection := c }) := by
  unfold deleteDBEntry
  rw [Method.get_bind_apply]
  cases hdocuments : s.collection with
  | none =>
    rw [hdocuments] at h
    obtain rfl := Option.some.inj h
    rw [← hdocuments, if_pos (by rw [hdocuments]; rfl)]
    rfl
  | some documents =>
    rw [hdocuments] at h
    obtain ⟨entry, hnamed, hmap⟩ := Option.bind_eq_some_iff.1 h
    obtain ⟨rest, hrest, rfl⟩ := Option.map_eq_some_iff.1 hmap
    obtain ⟨entry', hnamed', hget⟩ | ⟨hnone, -⟩ := getDBEntry_eq around name hdocuments
    · obtain rfl := Option.some.inj (hnamed.symm.trans hnamed')
      obtain ⟨b, hdelete⟩ := (delete_apply hdocuments).1 rest hrest
      rw [if_neg (by simp), Method.bind_ok hget]
      exact Method.bind_ok hdelete
    · rw [hnamed] at hnone
      cases hnone

theorem deleteDBEntry_none {name : String} (h : withoutEntry finder around name s.collection = none) :
    deleteDBEntry finder around name s = (.ok false, s) ∨
      ∃ e, deleteDBEntry finder around name s = (.error e, s) := by
  unfold deleteDBEntry
  rw [Method.get_bind_apply]
  cases hdocuments : s.collection with
  | none =>
    rw [hdocuments] at h
    cases h
  | some documents =>
    rw [hdocuments] at h
    rw [if_neg (by simp)]
    obtain ⟨entry, hnamed, hget⟩ | ⟨-, hget | ⟨e, hget⟩⟩ := getDBEntry_eq around name hdocuments
    · have hrest : withoutFound finder around entry documents = none := by
        unfold withoutEntry at h
        dsimp only at h
        rw [hnamed] at h
        exact Option.map_eq_none_iff.1 h
      obtain ⟨e, hdelete⟩ := (delete_apply hdocuments).2 hrest
      rw [Method.bind_ok hget]
      exact .inr ⟨e, Method.bind_error hdelete⟩
    · rw [Method.bind_ok hget]
      exact .inl rfl
    · exact .inr ⟨e, Method.bind_error hget⟩

theorem insertDBEntry_some {entry : Entry} {c : Option (List Entry)}
    (h : withEntry finder around entry s.collection = some c) :
    insertDBEntry finder around entry s = (.ok true, { s with collection := c }) := by
  unfold insertDBEntry insert
  rw [Method.get_bind_apply]
  cases hdocuments : s.collection with
  | none =>
    rw [hdocuments] at h
    obtain rfl := Option.some.inj h
    rw [← hdocuments, if_pos (by rw [hdocuments]; rfl)]
    rfl
  | some documents =>
    rw [hdocuments] at h
    unfold withEntry at h
    dsimp only at h
    have hins : ∃ b, insert finder around entry s = (.ok b, { s with collection := c }) := by
      unfold insert
      rw [Method.get_bind_apply, hdocuments]
      dsimp only
      split_ifs at h ⊢ <;> obtain rfl := Option.some.inj h
      · exact ⟨true, by rw [collection_eq hdocuments]; rfl⟩
      · exact ⟨true, rfl⟩
      · exact ⟨false, by rw [collection_eq hdocuments]; rfl⟩
    obtain ⟨b, hins⟩ := hins
    rw [if_neg (by simp)]
    exact Method.bind_ok hins

theorem insertDBEntry_none {entry : Entry} (h : withEntry finder around entry s.collection = none) :
    ∃ e, insertDBEntry finder around entry s = (.error e, s) := by
  unfold insertDBEntry insert
  rw [Method.get_bind_apply]
  cases hdocuments : s.collection with
  | none =>
    rw [hdocuments] at h
    cases h
  | some documents =>
    rw [hdocuments] at h
    unfold withEntry at h
    dsimp only at h
    have hins : ∃ e, insert finder around entry s = (.error e, s) := by
      unfold insert
      rw [Method.get_bind_apply, hdocuments]
      dsimp only
      split_ifs at h ⊢
      exact ⟨_, rfl⟩
    obtain ⟨e, hins⟩ := hins
    rw [if_neg (by simp)]
    exact ⟨e, Method.bind_error hins⟩

end StaticFlowEntryStorage

/-! ## Flow-mods -/

namespace StaticFlowEntryManager

open StaticFlowEntryStorage

variable {φ τ : Type} (p : StaticFlowEntryManager φ τ)

/-- The flow-mod that is written and the switch it is written to, if nothing fails. -/
def written (around : Surroundings) (dpid : Option String) (command : FlowModCommand) (entry : Option Entry) :
    Option (Dpid × Option φ) :=
  (dpid.bind parseDpid).bind fun id => (around.getSwitch id).bind fun version => entry.bind fun entry =>
    ((p.makeFlowMod version command entry).toOption).bind fun message =>
      if around.found ∧ (message.isSome → around.writes) then some (id, message) else none

/-- The storage with the flow table changed. -/
def sent (w : Dpid × Option φ) (s : StaticFlowEntryStorage τ) : StaticFlowEntryStorage τ :=
  match w.2 with
  | none => s
  | some message => { s with flowTables := Function.update s.flowTables w.1 (p.apply message (s.flowTables w.1)) }

variable {p} {around : Surroundings} {dpid : Option String} {command : FlowModCommand} {entry : Option Entry}
  {s : StaticFlowEntryStorage τ}

variable (p around) in
theorem writeOFMessageToSwitch_apply (id : Dpid) (message : Option φ) (s : StaticFlowEntryStorage τ) :
    p.writeOFMessageToSwitch around id message s =
      if around.found ∧ (message.isSome → around.writes) then (.ok true, p.sent (id, message) s) else (.ok false, s) := by
  unfold writeOFMessageToSwitch sent
  cases hfound : around.found with
  | false => simp
  | true =>
    cases message with
    | none => simp
    | some message => cases hwrites : around.writes <;> simp

variable (p around dpid command entry s) in
/-- A flow-mod that is not written leaves everything as it was. -/
theorem sendFlowMod_eq : (∃ w, p.written around dpid command entry = some w ∧
      p.sendFlowMod around dpid command entry s = (.ok (), p.sent w s)) ∨
    p.written around dpid command entry = none ∧
      ∃ e, p.sendFlowMod around dpid command entry s = (.error e, s) := by
  unfold written sendFlowMod
  cases dpid with
  | none => exact .inr ⟨rfl, _, rfl⟩
  | some dpid =>
  rw [Method.nonNull_some, Method.pure_bind, Option.bind_some]
  cases parseDpid dpid with
  | none => exact .inr ⟨rfl, _, rfl⟩
  | some id =>
  rw [Method.nonNull_some, Method.pure_bind, Option.bind_some]
  cases around.getSwitch id with
  | none => exact .inr ⟨rfl, _, rfl⟩
  | some version =>
  rw [Method.nonNull_some, Method.pure_bind, Option.bind_some]
  cases entry with
  | none => exact .inr ⟨rfl, _, rfl⟩
  | some entry =>
  rw [Method.nonNull_some, Method.pure_bind, Option.bind_some]
  cases p.makeFlowMod version command entry with
  | error e => exact .inr ⟨rfl, e, rfl⟩
  | ok message =>
  have hmessage : (Except.ok message : Except Stop (Option φ)).toOption = some message := rfl
  have hwrite := writeOFMessageToSwitch_apply p around id message s
  rw [Method.ofExcept_ok, Method.pure_bind, hmessage, Option.bind_some]
  split_ifs at hwrite ⊢
  · exact .inl ⟨_, rfl, Method.bind_ok hwrite⟩
  · exact .inr ⟨rfl, _, Method.bind_ok hwrite⟩

/-! ## Deletions and insertions -/

section Stages

variable (p)

/-- The storage after a deletion. -/
def removed (s : StaticFlowEntryStorage τ) (name : String) (w : Dpid × Option φ) (c : Option (List Entry)) :
    StaticFlowEntryStorage τ :=
  let s' := ({ p.sent w { s with attempts := s.attempts + 1 } with collection := c }).deleteEntryFromIndices name
  { s' with flowModMap := s'.flowModMap.remove name }

/-- The storage after an insertion. -/
def added (s : StaticFlowEntryStorage τ) (name : String) (entry : Entry) (dpid : String) (w : Dpid × Option φ)
    (c : Option (List Entry)) : StaticFlowEntryStorage τ :=
  let s' := ({ p.sent w { s with attempts := s.attempts + 1 } with collection := c }).addEntryToIndices dpid name
  { s' with flowModMap := s'.flowModMap.put name entry }

/-- The listing in debug mode does not throw. -/
def Lists (around : Surroundings) (c : Option (List Entry)) : Prop :=
  p.debug = true → c.isSome = true → around.lists = true

instance (c : Option (List Entry)) : Decidable (p.Lists around c) := inferInstanceAs (Decidable (_ → _))

end Stages

variable (p around) in
theorem printDB_eq (s : StaticFlowEntryStorage τ) :
    (p.Lists around s.collection ∧ p.printDB around s = (.ok (), s)) ∨
    (¬p.Lists around s.collection ∧ ∃ e, p.printDB around s = (.error e, s)) := by
  unfold Lists printDB getAllDBEntries
  cases p.debug with
  | false => exact .inl ⟨nofun, rfl⟩
  | true =>
    rw [if_pos rfl]
    cases hdocuments : s.collection with
    | none =>
      refine .inl ⟨nofun, ?_⟩
      have hnone : getAllDBEntries around.lists s = (.ok [], s) := by
        unfold getAllDBEntries
        rw [Method.get_bind_apply, hdocuments]
        rfl
      exact Method.bind_ok hnone
    | some documents =>
      have hsome : getAllDBEntries around.lists s =
          (if around.lists then .ok (documents.map dbObjectToMap) else .error .exception, s) := by
        unfold getAllDBEntries
        rw [Method.get_bind_apply, hdocuments]
        cases around.lists <;> rfl
      cases hlists : around.lists with
      | true =>
        rw [hlists] at hsome
        exact .inl ⟨fun _ _ => rfl, Method.bind_ok hsome⟩
      | false =>
        rw [hlists] at hsome
        exact .inr ⟨fun h => absurd (h rfl rfl) Bool.false_ne_true, _, Method.bind_error hsome⟩

@[simp] theorem flowModMap_sent (w : Dpid × Option φ) (s : StaticFlowEntryStorage τ) :
    (p.sent w s).flowModMap = s.flowModMap := by
  unfold sent
  cases w.2 <;> rfl

@[simp] theorem dpidToFlowModNameIndex_sent (w : Dpid × Option φ) (s : StaticFlowEntryStorage τ) :
    (p.sent w s).dpidToFlowModNameIndex = s.dpidToFlowModNameIndex := by
  unfold sent
  cases w.2 <;> rfl

@[simp] theorem flowModNameToDpidIndex_sent (w : Dpid × Option φ) (s : StaticFlowEntryStorage τ) :
    (p.sent w s).flowModNameToDpidIndex = s.flowModNameToDpidIndex := by
  unfold sent
  cases w.2 <;> rfl

@[simp] theorem collection_sent (w : Dpid × Option φ) (s : StaticFlowEntryStorage τ) :
    (p.sent w s).collection = s.collection := by
  unfold sent
  cases w.2 <;> rfl

@[simp] theorem flowModMap_deleteEntryFromIndices (s : StaticFlowEntryStorage τ) (name : String) :
    (s.deleteEntryFromIndices name).flowModMap = s.flowModMap := by
  unfold deleteEntryFromIndices
  split
  · rfl
  · split <;> rfl

@[simp] theorem collection_deleteEntryFromIndices (s : StaticFlowEntryStorage τ) (name : String) :
    (s.deleteEntryFromIndices name).collection = s.collection := by
  unfold deleteEntryFromIndices
  split
  · rfl
  · split <;> rfl

@[simp] theorem attempts_deleteEntryFromIndices (s : StaticFlowEntryStorage τ) (name : String) :
    (s.deleteEntryFromIndices name).attempts = s.attempts := by
  unfold deleteEntryFromIndices
  split
  · rfl
  · split <;> rfl

@[simp] theorem attempts_sent (w : Dpid × Option φ) (s : StaticFlowEntryStorage τ) :
    (p.sent w s).attempts = s.attempts := by
  unfold sent
  cases w.2 <;> rfl

section Fields

variable (s : StaticFlowEntryStorage τ) (name : String) (entry : Entry) (dpid : String) (w : Dpid × Option φ)
  (c : Option (List Entry))

@[simp] theorem flowModMap_removed : (p.removed s name w c).flowModMap = s.flowModMap.remove name := by
  simp [removed]

@[simp] theorem collection_removed : (p.removed s name w c).collection = c := by
  simp [removed]

@[simp] theorem attempts_removed : (p.removed s name w c).attempts = s.attempts + 1 := by
  simp [removed]

@[simp] theorem flowModMap_added : (p.added s name entry dpid w c).flowModMap = s.flowModMap.put name entry := by
  simp [added, addEntryToIndices]

@[simp] theorem collection_added : (p.added s name entry dpid w c).collection = c := rfl

@[simp] theorem dpidToFlowModNameIndex_added : (p.added s name entry dpid w c).dpidToFlowModNameIndex =
    s.dpidToFlowModNameIndex.add dpid name := by
  simp [added, addEntryToIndices]

@[simp] theorem flowModNameToDpidIndex_added : (p.added s name entry dpid w c).flowModNameToDpidIndex =
    s.flowModNameToDpidIndex.put name dpid := by
  simp [added, addEntryToIndices]

end Fields

/-- A deletion is completed, or comes to an end at the database, or before it. -/
theorem deleteFlow_eq (name : String) (s : StaticFlowEntryStorage τ) :
    (∃ dpid w c, s.flowModNameToDpidIndex.get name = some dpid ∧
      p.written (p.around s.attempts) (some dpid) .deleteStrict (s.flowModMap.get name) = some w ∧
      withoutEntry p.finder (p.around s.attempts) name s.collection = some c ∧
      p.deleteFlow name s = p.printDB (p.around s.attempts) (p.removed s name w c)) ∨
    (∃ dpid w e, s.flowModNameToDpidIndex.get name = some dpid ∧
      p.written (p.around s.attempts) (some dpid) .deleteStrict (s.flowModMap.get name) = some w ∧
      withoutEntry p.finder (p.around s.attempts) name s.collection = none ∧
      p.deleteFlow name s = (.error e, p.sent w { s with attempts := s.attempts + 1 })) ∨
    ((s.flowModNameToDpidIndex.get name).bind (fun dpid =>
        p.written (p.around s.attempts) (some dpid) .deleteStrict (s.flowModMap.get name)) = none ∧
      ∃ e attempts, p.deleteFlow name s = (.error e, { s with attempts })) := by
  have hmeet : p.meet s = (.ok (p.around s.attempts), { s with attempts := s.attempts + 1 }) := rfl
  unfold deleteFlow
  rw [Method.get_bind_apply]
  cases hdpid : s.flowModNameToDpidIndex.get name with
  | none => exact .inr (.inr ⟨rfl, _, s.attempts, rfl⟩)
  | some dpid =>
    rw [Method.nonNull_some, Method.pure_bind, Method.bind_ok hmeet]
    obtain ⟨w, hwritten, hsend⟩ | ⟨hwritten, e, hsend⟩ := sendFlowMod_eq p (p.around s.attempts) (some dpid)
      .deleteStrict (s.flowModMap.get name) { s with attempts := s.attempts + 1 }
    · rw [Method.bind_ok hsend]
      have hcollection : (p.sent w { s with attempts := s.attempts + 1 }).collection = s.collection :=
        collection_sent w _
      cases hrest : withoutEntry p.finder (p.around s.attempts) name s.collection with
      | some c =>
        have hdelete := deleteDBEntry_some (hcollection.symm ▸ hrest)
        rw [Method.bind_ok hdelete]
        exact .inl ⟨dpid, w, c, rfl, hwritten, rfl, rfl⟩
      | none =>
        obtain hdelete | ⟨e, hdelete⟩ := deleteDBEntry_none (hcollection.symm ▸ hrest)
        · rw [Method.bind_ok hdelete]
          exact .inr (.inl ⟨dpid, w, _, rfl, hwritten, rfl, rfl⟩)
        · exact .inr (.inl ⟨dpid, w, e, rfl, hwritten, rfl, Method.bind_error hdelete⟩)
    · exact .inr (.inr ⟨hwritten, e, s.attempts + 1, Method.bind_error hsend⟩)

/-- An insertion is completed, or comes to an end at the database, or before it. -/
theorem pushFlow_eq (name : String) (entry : Entry) (dpid : Option String) (s : StaticFlowEntryStorage τ) :
    (∃ d w c, dpid = some d ∧ p.written (p.around s.attempts) (some d) .add (some entry) = some w ∧
      withEntry p.finder (p.around s.attempts) entry s.collection = some c ∧
      p.pushFlow name entry dpid s = p.printDB (p.around s.attempts) (p.added s name entry d w c)) ∨
    (∃ d w e, dpid = some d ∧ p.written (p.around s.attempts) (some d) .add (some entry) = some w ∧
      withEntry p.finder (p.around s.attempts) entry s.collection = none ∧
      p.pushFlow name entry dpid s = (.error e, p.sent w { s with attempts := s.attempts + 1 })) ∨
    (p.written (p.around s.attempts) dpid .add (some entry) = none ∧
      ∃ e attempts, p.pushFlow name entry dpid s = (.error e, { s with attempts })) := by
  have hmeet : p.meet s = (.ok (p.around s.attempts), { s with attempts := s.attempts + 1 }) := rfl
  unfold pushFlow
  rw [Method.bind_ok hmeet]
  obtain ⟨w, hwritten, hsend⟩ | ⟨hwritten, e, hsend⟩ := sendFlowMod_eq p (p.around s.attempts) dpid .add (some entry)
    { s with attempts := s.attempts + 1 }
  · rw [Method.bind_ok hsend]
    cases dpid with
    | none => cases hwritten
    | some d =>
      have hcollection : (p.sent w { s with attempts := s.attempts + 1 }).collection = s.collection :=
        collection_sent w _
      rw [Method.nonNull_some, Method.pure_bind]
      cases hrest : withEntry p.finder (p.around s.attempts) entry s.collection with
      | some c =>
        have hinsert := insertDBEntry_some (hcollection.symm ▸ hrest)
        rw [Method.bind_ok hinsert]
        exact .inl ⟨d, w, c, rfl, hwritten, rfl, rfl⟩
      | none =>
        obtain ⟨e, hinsert⟩ := insertDBEntry_none (hcollection.symm ▸ hrest)
        exact .inr (.inl ⟨d, w, e, rfl, hwritten, rfl, Method.bind_error hinsert⟩)
  · exact .inr (.inr ⟨hwritten, e, s.attempts + 1, Method.bind_error hsend⟩)

end StaticFlowEntryManager

end Torpedo
