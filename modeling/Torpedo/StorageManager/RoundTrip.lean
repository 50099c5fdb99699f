import Mathlib.Data.List.Infix
import Torpedo.StorageManager.StorageConverter

/-!
# Documents and maps

A map is made of its document again, at every depth, if none of its keys is the id of the database or has the string
for a dot in it. The string begins with a letter that it does not have elsewhere, so the string for one dot does not
run into another or into what stands around it.
-/

namespace Torpedo

namespace StorageConverter

/-! ## Keys -/

theorem replaceUtf_cons_of_ne {c : Char} {cs : List Char} (h : ¬dotString.toList <+: c :: cs) :
    replaceUtf (c :: cs) = c :: replaceUtf cs := by
  refine replaceUtf.eq_2 c cs fun rest hc hcs => h ?_
  subst hc hcs
  exact ⟨rest, rfl⟩

/-- What has not the first character of the string for a dot does not come of a dot. -/
theorem prefix_of_prefix_flatMap {ds cs : List Char} (hU : 'U' ∉ ds)
    (h : ds <+: cs.flatMap fun c => if c = '.' then dotString.toList else [c]) : ds <+: cs := by
  induction ds generalizing cs with
  | nil => exact List.nil_prefix
  | cons d ds ih =>
    rw [List.mem_cons, not_or] at hU
    cases cs with
    | nil => exact absurd (List.prefix_nil.1 h) (List.cons_ne_nil d ds)
    | cons c cs =>
      rw [List.flatMap_cons] at h
      by_cases hdot : c = '.'
      · rw [if_pos hdot] at h
        exact absurd (List.cons_prefix_cons.1 h).1 (Ne.symm hU.1)
      · rw [if_neg hdot] at h
        obtain ⟨rfl, hrest⟩ := List.cons_prefix_cons.1 h
        exact List.cons_prefix_cons.2 ⟨rfl, ih hU.2 hrest⟩

theorem replaceUtf_replaceDot {cs : List Char} (h : ¬dotString.toList <:+: cs) :
    replaceUtf (cs.flatMap fun c => if c = '.' then dotString.toList else [c]) = cs := by
  induction cs with
  | nil => rfl
  | cons c cs ih =>
    have hrest := ih fun hcs => h (hcs.trans (List.suffix_cons c cs).isInfix)
    rw [List.flatMap_cons]
    by_cases hdot : c = '.'
    · subst hdot
      rw [if_pos rfl]
      exact congrArg ('.' :: ·) hrest
    · rw [if_neg hdot, List.singleton_append, replaceUtf_cons_of_ne, hrest]
      intro hprefix
      obtain ⟨hc, hrest⟩ := List.cons_prefix_cons.1 hprefix
      refine h (List.IsPrefix.isInfix (List.cons_prefix_cons.2 ⟨hc, ?_⟩))
      exact prefix_of_prefix_flatMap (by decide) hrest

theorem dot_notMem_replaceDot (cs : List Char) :
    '.' ∉ cs.flatMap fun c => if c = '.' then dotString.toList else [c] := by
  rw [List.mem_flatMap]
  rintro ⟨c, -, hmem⟩
  split_ifs at hmem with hdot
  · exact absurd hmem (by decide)
  · exact hdot (List.mem_singleton.1 hmem).symm

/-- A key that is read as it was before it was written. -/
structure Restorable (k : String) : Prop where
  ne_id : k ≠ "_id"
  noDotString : ¬dotString.toList <:+: k.toList

instance (k : String) : Decidable (Restorable k) :=
  decidable_of_iff (k ≠ "_id" ∧ ¬dotString.toList <:+: k.toList) ⟨fun h => ⟨h.1, h.2⟩, fun h => ⟨h.1, h.2⟩⟩

theorem Restorable.replaceKey_replaceKey {k : String} (h : Restorable k) :
    replaceKey false (replaceKey true k) = k := by
  show replaceDotUtfToDot (replaceDotToDotUtf k) = k
  unfold replaceDotUtfToDot replaceDotToDotUtf
  rw [String.toList_ofList, replaceUtf_replaceDot h.noDotString, String.ofList_toList]

theorem Restorable.replaceKey_ne_id {k : String} (h : Restorable k) : replaceKey true k ≠ "_id" := by
  rw [Ne, replaceKey_eq_iff (by decide) (by decide)]
  exact h.ne_id

end StorageConverter

/-! ## Maps at every depth -/

namespace Value

mutual

/-- The keys of every map in the value have a property. -/
def Each (P : List String → Prop) : Value → Prop
  | list vs => ListEach P vs
  | map fields => P fields.keys ∧ FieldsEach P fields
  | null => True
  | boolean _ => True
  | number _ => True
  | string _ => True

def ListEach (P : List String → Prop) : List Value → Prop
  | [] => True
  | v :: vs => Each P v ∧ ListEach P vs

def FieldsEach (P : List String → Prop) : Fields → Prop
  | [] => True
  | ⟨_, v⟩ :: fields => Each P v ∧ FieldsEach P fields

end

theorem fieldsEach_iff {P : List String → Prop} {fields : Fields} :
    FieldsEach P fields ↔ ∀ field ∈ fields, field.2.Each P := by
  induction fields with
  | nil => exact ⟨fun _ _ => nofun, fun _ => trivial⟩
  | cons field fields ih =>
    rw [List.forall_mem_cons, ← ih]
    exact Iff.rfl

end Value

/-- The keys of the map, and those of every map in it, have a property. -/
def Entry.Each (P : List String → Prop) (map : Entry) : Prop := P map.keys ∧ Value.FieldsEach P map.entries

namespace StorageConverter

/-- A field as it is written, and as it is read. -/
def convert (dot : Bool) (field : Sigma fun _ : String => Value) : Sigma fun _ : String => Value :=
  ⟨replaceKey dot field.1, traverse dot field.2⟩

/-- Keys that stay distinct are put one after the other. -/
theorem jsonTraverse_eq (dot : Bool) (result fields : Fields) (hid : dot = false → "_id" ∉ fields.keys)
    (hnodup : (fields.keys.map (replaceKey dot) ++ result.keys).Nodup) :
    jsonTraverse dot result fields = (fields.map (convert dot)).reverse ++ result := by
  induction fields generalizing result with
  | nil => rfl
  | cons field fields ih =>
    obtain ⟨r, o⟩ := field
    unfold jsonTraverse
    rw [if_neg fun h => hid h.1 (by rw [h.2]; exact List.mem_cons_self)]
    have hfresh : replaceKey dot r ∉ result.keys := fun hmem =>
      List.disjoint_of_nodup_append hnodup (List.mem_map.2 ⟨r, List.mem_cons_self, rfl⟩) hmem
    rw [List.kinsert_def, List.kerase_of_notMem_keys hfresh, ih]
    · rw [List.map_cons, List.reverse_cons, List.append_assoc]
      rfl
    · exact fun hdot hmem => hid hdot (List.mem_cons_of_mem _ hmem)
    · refine (List.Perm.nodup_iff ?_).1 hnodup
      exact List.perm_middle.symm

/-- The keys of a map are distinct, and each is read as it was before it was written. -/
def RestorableKeys (keys : List String) : Prop := keys.Nodup ∧ ∀ k ∈ keys, Restorable k

instance (keys : List String) : Decidable (RestorableKeys keys) := inferInstanceAs (Decidable (_ ∧ _))

/-- No key has a dot. -/
def WithoutDots (keys : List String) : Prop := ∀ k ∈ keys, '.' ∉ k.toList

theorem keys_map_convert (dot : Bool) (fields : Fields) :
    (fields.map (convert dot)).keys = fields.keys.map (replaceKey dot) := by
  unfold List.keys
  rw [List.map_map, List.map_map]
  rfl

theorem RestorableKeys.map_map {keys : List String} (h : RestorableKeys keys) :
    (keys.map (replaceKey true)).map (replaceKey false) = keys := by
  rw [List.map_map]
  refine (List.map_congr_left fun k hk => ?_).trans (List.map_id keys)
  exact (h.2 k hk).replaceKey_replaceKey

theorem jsonTraverse_true_eq {fields : Fields} (h : RestorableKeys fields.keys) :
    jsonTraverse true [] fields = (fields.map (convert true)).reverse := by
  rw [jsonTraverse_eq true [] fields nofun, List.append_nil]
  rw [List.keys_nil, List.append_nil]
  refine List.Nodup.of_map (replaceKey false) ?_
  rw [h.map_map]
  exact h.1

/-- What is written of the fields is read as the fields, if that holds of each value. -/
theorem jsonTraverse_jsonTraverse {fields : Fields} (h : RestorableKeys fields.keys)
    (hvalues : fields.map (fun field => convert false (convert true field)) = fields) :
    jsonTraverse false [] (jsonTraverse true [] fields) = fields := by
  have hkeys : (fields.map (convert true)).reverse.keys = (fields.keys.map (replaceKey true)).reverse := by
    rw [← keys_map_convert]
    exact List.map_reverse
  rw [jsonTraverse_true_eq h, jsonTraverse_eq, List.append_nil, List.map_reverse, List.reverse_reverse, List.map_map]
  · exact hvalues
  · rintro - hid
    rw [hkeys, List.mem_reverse, List.mem_map] at hid
    obtain ⟨k, hk, heq⟩ := hid
    exact (h.2 k hk).replaceKey_ne_id heq
  · rw [List.keys_nil, List.append_nil, hkeys, List.map_reverse, List.nodup_reverse, h.map_map]
    exact h.1

/-! ## The round trip -/

mutual

theorem traverse_traverse : ∀ {v : Value}, v.Each RestorableKeys → traverse false (traverse true v) = v
  | .list _, h => congrArg Value.list (listTraverse_listTraverse h)
  | .map _, h => congrArg Value.map (jsonTraverse_jsonTraverse h.1 (convert_convert h.2 h.1.2))
  | .null, _ => rfl
  | .boolean _, _ => rfl
  | .number _, _ => rfl
  | .string _, _ => rfl

theorem listTraverse_listTraverse : ∀ {vs : List Value}, Value.ListEach RestorableKeys vs →
    listTraverse false (listTraverse true vs) = vs
  | [], _ => rfl
  | _ :: _, h => congrArg₂ List.cons (traverse_traverse h.1) (listTraverse_listTraverse h.2)

theorem convert_convert : ∀ {fields : Fields}, Value.FieldsEach RestorableKeys fields →
    (∀ k ∈ fields.keys, Restorable k) → fields.map (fun field => convert false (convert true field)) = fields
  | [], _, _ => rfl
  | ⟨k, _⟩ :: _, h, hkeys =>
    have hkey : replaceKey false (replaceKey true k) = k := (hkeys k List.mem_cons_self).replaceKey_replaceKey
    congrArg₂ List.cons (Sigma.ext hkey (heq_of_eq (traverse_traverse h.1)))
      (convert_convert h.2 fun _ hk => hkeys _ (List.mem_cons_of_mem _ hk))

end

/-! ## Dots -/

theorem withoutDots_replaceKey (k : String) : '.' ∉ (replaceKey true k).toList := by
  show '.' ∉ (replaceDotToDotUtf k).toList
  unfold replaceDotToDotUtf
  rw [String.toList_ofList]
  exact dot_notMem_replaceDot k.toList

theorem withoutDots_kinsert {result : Fields} {k : String} {v : Value} (hkey : '.' ∉ k.toList)
    (h : WithoutDots result.keys) : WithoutDots (result.kinsert k v).keys := by
  intro r hr
  rcases List.mem_keys_kinsert.1 hr with rfl | hr
  · exact hkey
  · exact h r hr

theorem fieldsEach_kinsert {P : List String → Prop} {result : Fields} {k : String} {v : Value} (hv : v.Each P)
    (h : Value.FieldsEach P result) : Value.FieldsEach P (result.kinsert k v) := by
  rw [Value.fieldsEach_iff] at h ⊢
  rw [List.kinsert_def, List.forall_mem_cons]
  exact ⟨hv, fun field hfield => h field (List.kerase_sublist k result |>.subset hfield)⟩

mutual

/-- Whatever the keys were, those of a document have no dots. -/
theorem traverse_withoutDots : ∀ v : Value, (traverse true v).Each WithoutDots
  | .list vs => listTraverse_withoutDots vs
  | .map fields => jsonTraverse_withoutDots [] fields (fun _ => nofun) trivial
  | .null => trivial
  | .boolean _ => trivial
  | .number _ => trivial
  | .string _ => trivial

theorem listTraverse_withoutDots : ∀ vs : List Value, Value.ListEach WithoutDots (listTraverse true vs)
  | [] => trivial
  | v :: vs => ⟨traverse_withoutDots v, listTraverse_withoutDots vs⟩

theorem jsonTraverse_withoutDots : ∀ (result fields : Fields), WithoutDots result.keys →
    Value.FieldsEach WithoutDots result → WithoutDots (jsonTraverse true result fields).keys ∧
      Value.FieldsEach WithoutDots (jsonTraverse true result fields)
  | _, [], hkeys, hvalues => ⟨hkeys, hvalues⟩
  | result, ⟨r, o⟩ :: fields, hkeys, hvalues => by
    unfold jsonTraverse
    rw [if_neg fun h => Bool.noConfusion h.1]
    exact jsonTraverse_withoutDots _ fields (withoutDots_kinsert (withoutDots_replaceKey r) hkeys)
      (fieldsEach_kinsert (traverse_withoutDots o) hvalues)

end

/-- A map comes back from its document equal at every depth, and no key of the document has a dot. -/
theorem dbObjectToMap_mapToDBObject (map : Entry) (h : map.Each RestorableKeys) :
    dbObjectToMap (mapToDBObject map) = map ∧ (mapToDBObject map).Each WithoutDots :=
  ⟨AList.ext (jsonTraverse_jsonTraverse h.1 (convert_convert h.2 h.1.2)),
    jsonTraverse_withoutDots [] map.entries (fun _ => nofun) trivial⟩

/-- Statistics by address, as a storage holds them. -/
def addresses : Entry :=
  ⟨[⟨"10.0.0.1", .list [.map [⟨"rx.bytes", .number "1.5"⟩, ⟨"U+FF0", .null⟩], .list [], .string "a.b"]⟩,
    ⟨"U+FF0.", .map []⟩], (by decide : ["10.0.0.1", "U+FF0."].Nodup)⟩

theorem dbObjectToMap_addresses :
    dbObjectToMap (mapToDBObject addresses) = addresses ∧ (mapToDBObject addresses).Each WithoutDots := by
  have hinner : RestorableKeys ["rx.bytes", "U+FF0"] := by decide +kernel
  have hkeys : RestorableKeys addresses.keys := by decide +kernel
  exact dbObjectToMap_mapToDBObject addresses
    ⟨hkeys, ⟨⟨hinner, trivial, trivial, trivial⟩, trivial, trivial, trivial⟩, ⟨by decide, trivial⟩, trivial⟩

end StorageConverter

end Torpedo
