import Mathlib.Data.List.Find
import Torpedo.StorageManager.TextDots
import Torpedo.Util.LinkedMaps

/-!
# Text forms and map forms

The text forms of the operations of `OFMStorageManager` read a text whose dots are written out, and the map forms
write out the dots of the names of a map. They make the same document of a text if its dots are in names.
-/

namespace Torpedo

open JsonText StorageConverter

/-! ## Documents -/

/-- What the database keeps of a value. The fields of a map have no order. -/
inductive Document
  | null
  | boolean (b : Bool)
  | number (text : String)
  | string (s : String)
  | list (ds : List Document)
  | map (get : String → Option Document)

mutual

def Value.document : Value → Document
  | .null => .null
  | .boolean b => .boolean b
  | .number text => .number text
  | .string s => .string s
  | .list vs => .list (listDocuments vs)
  | .map fields => .map (fieldDocument fields)

def Value.listDocuments : List Value → List Document
  | [] => []
  | v :: vs => document v :: listDocuments vs

def Value.fieldDocument : Fields → String → Option Document
  | [], _ => none
  | ⟨k, v⟩ :: fields, name => if k = name then some (document v) else fieldDocument fields name

end

def Entry.document (entry : Entry) : Document := .map (Value.fieldDocument entry.entries)

/-! ## Texts -/

abbrev Members := List (Written × Tree Written (List Char))

namespace JsonText.Tree

mutual

/-- What `readValue` makes of a tree. A map keeps the order of its names, and the last value of each. -/
def value : Tree Written (List Char) → Value
  | .literal none => .null
  | .literal (some b) => .boolean b
  | .number n => .number (.ofList n)
  | .string w => .string (.ofList w.text)
  | .array items => .list (itemValues items)
  | .object members => .map (memberValues [] members)

def itemValues : List (Tree Written (List Char)) → List Value
  | [] => []
  | t :: items => value t :: itemValues items

def memberValues (fields : Fields) : Members → Fields
  | [] => fields
  | (w, t) :: members => memberValues (putBy Sigma.fst ⟨.ofList w.text, value t⟩ fields) members

end

theorem nodupKeys_memberValues {fields : Fields} (h : fields.NodupKeys) (members : Members) :
    (memberValues fields members).NodupKeys := by
  induction members generalizing fields with
  | nil => exact h
  | cons m members ih => exact ih (nodup_putBy h)

end JsonText.Tree

/-- The map of an object. -/
def Entry.ofMembers (members : Members) : Entry :=
  ⟨Tree.memberValues [] members, Tree.nodupKeys_memberValues List.nodupKeys_nil members⟩

/-- The reader of the library reads JSON, and fails on what is none. -/
structure ReadsJson (readValue : String → Option Entry) : Prop where
  reads : ∀ s members, JsonText.read s.toList = .ok members → readValue s = some (.ofMembers members)
  fails : ∀ s, JsonText.read s.toList = .error .malformed → readValue s = none

/-! ## The operations -/

/-- The database: whether a query finds a document, and what an update makes of a document. -/
structure MongoDatabase where
  finds : Entry → Entry → Bool
  updated : Entry → Entry → Entry

/-- What is found depends on the document that the query is, and this one is found. -/
structure MongoDatabase.Exact (db : MongoDatabase) : Prop where
  congr : ∀ query query' doc : Entry, query.document = query'.document → db.finds query doc = db.finds query' doc
  self : ∀ doc : Entry, db.finds doc doc

namespace MongoDatabase

variable (db : MongoDatabase)

/-- `update`, of the first document that is found. -/
def update (query change : Entry) : List Entry → Option (List Entry)
  | [] => none
  | doc :: docs =>
    if db.finds query doc then some (db.updated doc change :: docs) else (update query change docs).map (doc :: ·)

/-- `remove`. -/
def remove (query : Entry) (docs : List Entry) : List Entry := docs.filter (!db.finds query ·)

end MongoDatabase

namespace OFMStorageManager

variable (db : MongoDatabase) (readValue : String → Option Entry) (toText : Entry → String)

/-- The query of a text form. -/
def textQuery (r : String) : Option Entry := readValue (replaceDotToDotUtf r)

def insert (query : Entry) (collection : List Entry) : Bool × List Entry :=
  if (collection.filter (db.finds (mapToDBObject query))).length = 0 then
    (true, collection ++ [mapToDBObject query])
  else (true, collection)

def insertText (r : String) (collection : List Entry) : Bool × List Entry :=
  match textQuery readValue r with
  | none => (false, collection)
  | some query =>
    if (collection.filter (db.finds query)).length = 0 then (true, collection ++ [query]) else (false, collection)

def delete (query : Entry) (collection : List Entry) : Bool × List Entry :=
  if (collection.filter (db.finds (mapToDBObject query))).length ≠ 0 then
    (true, db.remove (mapToDBObject query) collection)
  else (false, collection)

/-- There is none where a `StorageException` is thrown. -/
def deleteText (r : String) (collection : List Entry) : Option (Bool × List Entry) :=
  match textQuery readValue r with
  | none => none
  | some query =>
    if (collection.filter (db.finds query)).length ≠ 0 then some (true, db.remove query collection)
    else some (false, collection)

def update (key query : Entry) (collection : List Entry) : Bool × List Entry :=
  match db.update (mapToDBObject key) (mapToDBObject query) collection with
  | some collection => (true, collection)
  | none => (false, collection)

/-- The text form is content also if nothing is found. -/
def updateText (key query : String) (collection : List Entry) : Option (Bool × List Entry) := do
  let key ← textQuery readValue key
  let query ← textQuery readValue query
  return (true, (db.update key query collection).getD collection)

def retrieve (query : Entry) (collection : List Entry) : List Entry :=
  (collection.filter (db.finds (mapToDBObject query))).map dbObjectToMap

/-- The id of a document is left out. -/
def retrieveAsString (query : String) (collection : List Entry) : Option (List String) := do
  let query ← textQuery readValue query
  return (collection.filter (db.finds query)).map fun result => replaceDotUtfToDot (toText result)

end OFMStorageManager

open OFMStorageManager

/-- The forms agree on a text: they make the same document of it, and each finds what the other form of `insert`
stored. -/
structure Agree (db : MongoDatabase) (readValue : String → Option Entry) (toText : Entry → String) (r : String)
    (map : Entry) : Prop where
  document : ∃ query, textQuery readValue r = some query ∧ query.document = (mapToDBObject map).document
  retrieve : ∀ collection, retrieve db map (insertText db readValue r collection).2 ≠ []
  update : ∀ collection change, (update db map change (insertText db readValue r collection).2).1 = true
  delete : ∀ collection, (delete db map (insertText db readValue r collection).2).1 = true
  retrieveAsString : ∀ collection, ∃ texts,
    retrieveAsString db readValue toText r (insert db map collection).2 = some texts ∧ texts ≠ []
  updateText : ∀ collection change query, textQuery readValue change = some query → ∃ key docs,
    textQuery readValue r = some key ∧ db.update key query (insert db map collection).2 = some docs ∧
      updateText db readValue r change (insert db map collection).2 = some (true, docs)
  deleteText : ∀ collection, ∃ docs, deleteText db readValue r (insert db map collection).2 = some (true, docs)

/-! ## Names -/

/-- The member of an object that the text form keeps under a name. -/
def textMember (members : Members) (name : String) : Option (Written × Tree Written (List Char)) :=
  members.reverse.find? fun m => String.ofList m.1.dotless.text = name

/-- The member of an object that the map form keeps under a name: the map keeps the last member of each of its
names, and the document the last of the names. -/
def mapMember (members : Members) (name : String) : Option (Written × Tree Written (List Char)) :=
  (linked (fun m => m.1.text) members).reverse.find? fun m => String.ofList (dotless m.1.text) = name

/-- The text form reads the first tree as the map form writes the second. -/
inductive Alike : Tree Written (List Char) → Tree Written (List Char) → Prop
  | literal (value : Option Bool) : Alike (.literal value) (.literal value)
  | number {n n' : List Char} (h : dotless n = n') : Alike (.number n) (.number n')
  | string {w w' : Written} (h : w.dotless.text = w'.text) : Alike (.string w) (.string w')
  | array {items items' : List (Tree Written (List Char))} (h : List.Forall₂ Alike items items') :
    Alike (.array items) (.array items')
  | object {members members' : Members}
    (h : ∀ name, Option.Rel (fun m m' => Alike m.2 m'.2) (textMember members name) (mapMember members' name)) :
    Alike (.object members) (.object members')

/-- No two members of an object have the same name. -/
inductive Distinct : Tree Written (List Char) → Prop
  | literal (value : Option Bool) : Distinct (.literal value)
  | number (n : List Char) : Distinct (.number n)
  | string (w : Written) : Distinct (.string w)
  | array {items : List (Tree Written (List Char))} (h : ∀ t ∈ items, Distinct t) : Distinct (.array items)
  | object {members : Members} (hnodup : (members.map fun m => m.1.text).Nodup) (h : ∀ m ∈ members, Distinct m.2) :
    Distinct (.object members)

/-- The dots are in names and stand there as such: no number and no string has one, and no name has one that is
an escape. A member is left out if a later one has its name once the dots are written out. -/
inductive DotsInNames : Tree Written (List Char) → Prop
  | literal (value : Option Bool) : DotsInNames (.literal value)
  | number {n : List Char} (h : '.' ∉ n) : DotsInNames (.number n)
  | string {w : Written} (h : '.' ∉ w.lexeme) : DotsInNames (.string w)
  | array {items : List (Tree Written (List Char))} (h : ∀ t ∈ items, DotsInNames t) : DotsInNames (.array items)
  | object {members : Members} (hnames : ∀ m ∈ members, '.' ∉ m.1.dotless.text)
    (h : ∀ name m, textMember members name = some m → DotsInNames m.2) : DotsInNames (.object members)

/-! ## The documents of a tree -/

namespace JsonText.Tree

/-- What the text form makes of a tree. -/
def textDocument (t : Tree Written (List Char)) : Document := (t.map Written.dotless dotless).value.document

/-- What the map form makes of a tree. -/
def mapDocument (t : Tree Written (List Char)) : Document := (traverse true t.value).document

def field (m : Written × Tree Written (List Char)) : Sigma fun _ : String => Value := ⟨.ofList m.1.text, m.2.value⟩

theorem memberValues_eq (fields : Fields) (members : Members) :
    memberValues fields members = (members.map field).foldl (fun acc f => putBy Sigma.fst f acc) fields := by
  induction members generalizing fields with
  | nil => rfl
  | cons m members ih => exact ih _

theorem ofList_inj {cs cs' : List Char} : String.ofList cs = String.ofList cs' ↔ cs = cs' :=
  ⟨fun h => by simpa using congrArg String.toList h, fun h => congrArg _ h⟩

theorem memberValues_nil (members : Members) :
    memberValues [] members = (linked (fun m => m.1.text) members).map field := by
  have hkeys : ∀ m m' : Written × Tree Written (List Char), (field m).1 = (field m').1 ↔ m.1.text = m'.1.text :=
    fun m m' => ofList_inj
  rw [memberValues_eq]
  exact linked_map hkeys members

theorem fieldDocument_eq (fields : Fields) (name : String) :
    Value.fieldDocument fields name = (fields.find? (·.1 = name)).map fun f => f.2.document := by
  induction fields with
  | nil => rfl
  | cons f fields ih =>
    obtain ⟨k, v⟩ := f
    by_cases h : k = name <;> simp [Value.fieldDocument, h, ih]

theorem fieldDocument_kinsert (fields : Fields) (k : String) (v : Value) (name : String) :
    Value.fieldDocument (fields.kinsert k v) name =
      if k = name then some v.document else Value.fieldDocument fields name := by
  have hlookup : ∀ fields : Fields, Value.fieldDocument fields name = (fields.dlookup name).map Value.document := by
    intro fields
    induction fields with
    | nil => rfl
    | cons f fields ih =>
      obtain ⟨k, v⟩ := f
      by_cases h : name = k
      · subst h
        simp [Value.fieldDocument]
      · have hskip : List.dlookup name (⟨k, v⟩ :: fields) = fields.dlookup name := List.dlookup_cons_ne fields ⟨k, v⟩ h
        simp [Value.fieldDocument, Ne.symm h, hskip, ih]
  rw [hlookup, hlookup]
  split_ifs with h
  · subst h
    rw [List.dlookup_kinsert]
    rfl
  · rw [List.dlookup_kinsert_ne (Ne.symm h)]

/-- The last field that has the name once its dots are written out. -/
theorem fieldDocument_jsonTraverse (result fields : Fields) (name : String) :
    Value.fieldDocument (jsonTraverse true result fields) name =
      ((fields.reverse.find? (replaceDotToDotUtf ·.1 = name)).map fun f => (traverse true f.2).document).or
        (Value.fieldDocument result name) := by
  induction fields generalizing result with
  | nil => rfl
  | cons f fields ih =>
    obtain ⟨k, v⟩ := f
    have hstep : jsonTraverse true result (⟨k, v⟩ :: fields) =
        jsonTraverse true (result.kinsert (replaceDotToDotUtf k) (traverse true v)) fields := by
      rw [jsonTraverse, if_neg (by simp)]
      rfl
    rw [hstep, ih, fieldDocument_kinsert, List.reverse_cons, List.find?_append]
    cases fields.reverse.find? (replaceDotToDotUtf ·.1 = name) with
    | some f => rfl
    | none => by_cases h : replaceDotToDotUtf k = name <;> simp [h]

theorem textDocument_object (members : Members) : textDocument (.object members) =
    .map fun name => (textMember members name).map fun m => m.2.textDocument := by
  refine congrArg Document.map (funext fun name => ?_)
  rw [fieldDocument_eq, memberValues_eq, find_foldl_putBy, mapMembers_eq, List.map_map, ← List.map_reverse,
    List.find?_map]
  show (((textMember members name).map _).or none).map _ = _
  cases textMember members name <;> rfl

theorem mapDocument_object (members : Members) : mapDocument (.object members) =
    .map fun name => (mapMember members name).map fun m => m.2.mapDocument := by
  refine congrArg Document.map (funext fun name => ?_)
  have hnames : ((fun f : Sigma fun _ : String => Value => decide (replaceDotToDotUtf f.1 = name)) ∘ field) =
      fun m => decide (String.ofList (dotless m.1.text) = name) := by
    funext m
    simp [field, replaceDotToDotUtf_eq]
  rw [fieldDocument_jsonTraverse, memberValues_nil, ← List.map_reverse, List.find?_map, hnames]
  show (((mapMember members name).map _).map _).or none = _
  cases mapMember members name <;> rfl

theorem itemValues_eq (items : List (Tree Written (List Char))) : itemValues items = items.map value := by
  induction items with
  | nil => rfl
  | cons t items ih => exact congrArg (t.value :: ·) ih

theorem listDocuments_eq (vs : List Value) : Value.listDocuments vs = vs.map Value.document := by
  induction vs with
  | nil => rfl
  | cons v vs ih => exact congrArg (v.document :: ·) ih

theorem listTraverse_eq (dot : Bool) (vs : List Value) : listTraverse dot vs = vs.map (traverse dot) := by
  induction vs with
  | nil => rfl
  | cons v vs ih => exact congrArg (traverse dot v :: ·) ih

theorem textDocument_array (items : List (Tree Written (List Char))) :
    textDocument (.array items) = .list (items.map textDocument) := by
  refine congrArg Document.list ?_
  rw [mapItems_eq, itemValues_eq, listDocuments_eq, List.map_map, List.map_map]
  rfl

theorem mapDocument_array (items : List (Tree Written (List Char))) :
    mapDocument (.array items) = .list (items.map mapDocument) := by
  refine congrArg Document.list ?_
  rw [itemValues_eq, listTraverse_eq, listDocuments_eq, List.map_map, List.map_map]
  rfl

theorem mem_of_textMember {members : Members} {name : String} {m : Written × Tree Written (List Char)}
    (h : textMember members name = some m) : m ∈ members := List.mem_reverse.1 (List.mem_of_find?_eq_some h)

/-- Two options are the same if what is in them is. -/
theorem map_eq_map_iff {α β γ : Type} {f : α → γ} {g : β → γ} {r : α → β → Prop} {o : Option α} {o' : Option β}
    (h : ∀ a ∈ o, ∀ b, f a = g b ↔ r a b) : o.map f = o'.map g ↔ Option.Rel r o o' := by
  cases o with
  | none =>
    cases o' with
    | none => exact ⟨fun _ => .none, fun _ => rfl⟩
    | some b => exact ⟨nofun, nofun⟩
  | some a =>
    cases o' with
    | none => exact ⟨nofun, nofun⟩
    | some b =>
      rw [Option.map_some, Option.map_some, Option.some.injEq, h a rfl b]
      exact ⟨.some, fun | .some hab => hab⟩

theorem listMap_eq_map_iff {α β γ : Type} {f : α → γ} {g : β → γ} {r : α → β → Prop} :
    ∀ {l : List α} {l' : List β}, (∀ a ∈ l, ∀ b, f a = g b ↔ r a b) → (l.map f = l'.map g ↔ List.Forall₂ r l l')
  | [], [], _ => ⟨fun _ => .nil, fun _ => rfl⟩
  | [], _ :: _, _ => ⟨nofun, nofun⟩
  | _ :: _, [], _ => ⟨nofun, nofun⟩
  | a :: l, b :: l', h => by
    have hrest := @listMap_eq_map_iff _ _ _ f g r l l' fun a' ha' => h a' (List.mem_cons_of_mem _ ha')
    rw [List.map_cons, List.map_cons, List.cons.injEq, h a List.mem_cons_self, hrest]
    exact List.forall₂_cons.symm

mutual

theorem textDocument_eq_iff : ∀ t t' : Tree Written (List Char), t.textDocument = t'.mapDocument ↔ Alike t t'
  | .literal none, t' => by
    cases t' with
    | literal value' =>
      cases value' with
      | none => exact ⟨fun _ => .literal none, fun _ => rfl⟩
      | some b => exact ⟨nofun, nofun⟩
    | _ => exact ⟨nofun, nofun⟩
  | .literal (some b), t' => by
    cases t' with
    | literal value' =>
      cases value' with
      | none => exact ⟨nofun, nofun⟩
      | some b' =>
        refine ⟨fun h => ?_, fun | .literal _ => rfl⟩
        rw [Document.boolean.inj h]
        exact .literal (some b')
    | _ => exact ⟨nofun, nofun⟩
  | .number n, t' => by
    cases t' with
    | number n' =>
      exact ⟨fun h => .number (ofList_inj.1 (Document.number.inj h)), fun | .number h => congrArg _ (ofList_inj.2 h)⟩
    | literal value' => cases value' <;> exact ⟨nofun, nofun⟩
    | _ => exact ⟨nofun, nofun⟩
  | .string w, t' => by
    cases t' with
    | string w' =>
      exact ⟨fun h => .string (ofList_inj.1 (Document.string.inj h)), fun | .string h => congrArg _ (ofList_inj.2 h)⟩
    | literal value' => cases value' <;> exact ⟨nofun, nofun⟩
    | _ => exact ⟨nofun, nofun⟩
  | .array items, t' => by
    rw [textDocument_array]
    cases t' with
    | array items' =>
      rw [mapDocument_array, Document.list.injEq, listMap_eq_map_iff (textDocument_eq_iff_items items)]
      exact ⟨.array, fun | .array h => h⟩
    | literal value' => cases value' <;> exact ⟨nofun, nofun⟩
    | _ => exact ⟨nofun, nofun⟩
  | .object members, t' => by
    rw [textDocument_object]
    cases t' with
    | object members' =>
      rw [mapDocument_object, Document.map.injEq, funext_iff]
      have hmember : ∀ name, (textMember members name).map (fun m => m.2.textDocument) =
          (mapMember members' name).map (fun m => m.2.mapDocument) ↔
          Option.Rel (fun m m' => Alike m.2 m'.2) (textMember members name) (mapMember members' name) := by
        intro name
        refine map_eq_map_iff fun m hm m' => ?_
        exact textDocument_eq_iff_members members m (mem_of_textMember hm) m'.2
      simp only [hmember]
      exact ⟨.object, fun | .object h => h⟩
    | literal value' => cases value' <;> exact ⟨nofun, nofun⟩
    | _ => exact ⟨nofun, nofun⟩

theorem textDocument_eq_iff_items : ∀ items : List (Tree Written (List Char)), ∀ t ∈ items,
    ∀ t' : Tree Written (List Char), t.textDocument = t'.mapDocument ↔ Alike t t'
  | [], _, h => absurd h List.not_mem_nil
  | t :: items, t₁, h => fun t' => by
    obtain heq | hmem := List.mem_cons.1 h
    · rw [heq]
      exact textDocument_eq_iff t t'
    · exact textDocument_eq_iff_items items t₁ hmem t'

theorem textDocument_eq_iff_members : ∀ members : Members, ∀ m ∈ members,
    ∀ t' : Tree Written (List Char), m.2.textDocument = t'.mapDocument ↔ Alike m.2 t'
  | [], _, h => absurd h List.not_mem_nil
  | (w, t) :: members, m, h => fun t' => by
    obtain heq | hmem := List.mem_cons.1 h
    · rw [heq]
      exact textDocument_eq_iff t t'
    · exact textDocument_eq_iff_members members m hmem t'

end

/-! ## Distinct names -/

theorem dotless_text_of_notMem {w : Written} (h : '.' ∉ w.dotless.text) : w.dotless.text = dotless w.text := by
  rw [← w.dotless_dotless_text, dotless_eq_self h]

/-- The forms keep the same member of distinct names without escaped dots. -/
theorem textMember_eq_mapMember {members : Members} (hnodup : (members.map fun m => m.1.text).Nodup)
    (hnames : ∀ m ∈ members, '.' ∉ m.1.dotless.text) : textMember members = mapMember members := by
  funext name
  unfold textMember mapMember
  rw [linked_of_nodup hnodup]
  refine List.find?_congr fun m hm => ?_
  rw [dotless_text_of_notMem (hnames m (List.mem_reverse.1 hm))]

/-- Each member is kept by the text form under its name, so its name has no dot if the forms agree. -/
theorem notMem_of_rel {members : Members}
    (h : ∀ name, Option.Rel (fun m m' => Alike m.2 m'.2) (textMember members name) (mapMember members name))
    {m : Written × Tree Written (List Char)} (hm : m ∈ members) : '.' ∉ m.1.dotless.text := by
  have hrel := h (.ofList m.1.dotless.text)
  cases htext : textMember members (.ofList m.1.dotless.text) with
  | none =>
    have hnone := List.find?_eq_none.1 htext m (List.mem_reverse.2 hm)
    simp at hnone
  | some m₁ =>
    rw [htext] at hrel
    cases hmap : mapMember members (.ofList m.1.dotless.text) with
    | none =>
      rw [hmap] at hrel
      exact nomatch hrel
    | some m₂ =>
      have hname : dotless m₂.1.text = m.1.dotless.text := by
        simpa [ofList_inj] using List.find?_some hmap
      rw [← hname]
      exact dot_notMem_dotless _

/-- Where the names of each object are distinct, the forms agree on a tree exactly if its dots are in names. -/
theorem alike_self_iff {t : Tree Written (List Char)} (h : Distinct t) : Alike t t ↔ DotsInNames t := by
  induction h with
  | literal value => exact ⟨fun _ => .literal value, fun _ => .literal value⟩
  | number n =>
    constructor
    · rintro (_ | hn)
      exact .number (hn ▸ dot_notMem_dotless n)
    · rintro (_ | hn)
      exact .number (dotless_eq_self hn)
  | string w =>
    constructor
    · rintro (_ | _ | hw)
      exact .string (w.dotless_text_eq_iff.1 hw)
    · rintro (_ | _ | hw)
      exact .string (w.dotless_text_eq_iff.2 hw)
  | array h ih =>
    constructor
    · rintro (_ | _ | _ | hitems)
      exact .array fun t ht => (ih t ht).1 (List.forall₂_same.1 hitems t ht)
    · rintro (_ | _ | _ | hitems)
      exact .array (List.forall₂_same.2 fun t ht => (ih t ht).2 (hitems t ht))
  | @object members hnodup h ih =>
    constructor
    · rintro (_ | _ | _ | _ | hrel)
      have hnames : ∀ m ∈ members, '.' ∉ m.1.dotless.text := fun m hm => notMem_of_rel hrel hm
      refine .object hnames fun name m hm => ?_
      have hsame := hrel name
      rw [← textMember_eq_mapMember hnodup hnames, hm] at hsame
      cases hsame with
      | some halike => exact (ih m (mem_of_textMember hm)).1 halike
    · rintro (_ | _ | _ | _ | ⟨hnames, hmembers⟩)
      refine .object fun name => ?_
      rw [← textMember_eq_mapMember hnodup hnames]
      cases hm : textMember members name with
      | none => exact .none
      | some m => exact .some ((ih m (mem_of_textMember hm)).2 (hmembers name m hm))

end JsonText.Tree

/-! ## What the forms find -/

section

variable {db : MongoDatabase} {readValue : String → Option Entry} {toText : Entry → String} {r : String} {map query : Entry}

theorem filter_ne_nil_iff {docs : List Entry} :
    (docs.filter (db.finds query)).length ≠ 0 ↔ ∃ doc ∈ docs, db.finds query doc := by
  simp [List.filter_eq_nil_iff]

theorem found_insert (hdb : db.Exact) (collection : List Entry) :
    ∃ doc ∈ (OFMStorageManager.insert db map collection).2, db.finds (mapToDBObject map) doc := by
  unfold OFMStorageManager.insert
  split_ifs with hnone
  · exact ⟨_, List.mem_append_right _ List.mem_cons_self, hdb.self _⟩
  · exact filter_ne_nil_iff.1 hnone

theorem found_insertText (hdb : db.Exact) (hquery : textQuery readValue r = some query) (collection : List Entry) :
    ∃ doc ∈ (insertText db readValue r collection).2, db.finds query doc := by
  unfold insertText
  rw [hquery]
  dsimp only
  split_ifs with hnone
  · exact ⟨_, List.mem_append_right _ List.mem_cons_self, hdb.self _⟩
  · exact filter_ne_nil_iff.1 hnone

theorem update_of_found {change : Entry} {docs : List Entry} (h : ∃ doc ∈ docs, db.finds query doc) :
    ∃ docs', db.update query change docs = some docs' := by
  induction docs with
  | nil =>
    obtain ⟨doc, hmem, -⟩ := h
    exact absurd hmem List.not_mem_nil
  | cons doc docs ih =>
    unfold MongoDatabase.update
    split_ifs with hdoc
    · exact ⟨_, rfl⟩
    · obtain ⟨found, hmem, hfound⟩ := h
      obtain rfl | hmem := List.mem_cons.1 hmem
      · exact absurd hfound hdoc
      · obtain ⟨docs', hdocs'⟩ := ih ⟨found, hmem, hfound⟩
        rw [hdocs']
        exact ⟨_, rfl⟩

/-- The forms find what is stored if they store the same document. -/
theorem agree_iff_document (hdb : db.Exact) : Agree db readValue toText r map ↔
    ∃ query, textQuery readValue r = some query ∧ query.document = (mapToDBObject map).document := by
  refine ⟨Agree.document, ?_⟩
  rintro ⟨query, hquery, hdocument⟩
  have hsame : db.finds query = db.finds (mapToDBObject map) := funext fun doc => hdb.congr _ _ doc hdocument
  have hmap : ∀ collection, ∃ doc ∈ (insertText db readValue r collection).2, db.finds (mapToDBObject map) doc := by
    intro collection
    rw [← hsame]
    exact found_insertText hdb hquery collection
  have htext : ∀ collection, ∃ doc ∈ (OFMStorageManager.insert db map collection).2, db.finds query doc := by
    intro collection
    rw [hsame]
    exact found_insert hdb collection
  constructor
  · exact ⟨query, hquery, hdocument⟩
  · intro collection
    unfold OFMStorageManager.retrieve
    rw [Ne, List.map_eq_nil_iff, ← List.length_eq_zero_iff]
    exact filter_ne_nil_iff.2 (hmap collection)
  · intro collection change
    obtain ⟨docs, hdocs⟩ := update_of_found (hmap collection)
    unfold OFMStorageManager.update
    rw [hdocs]
  · intro collection
    unfold OFMStorageManager.delete
    rw [if_pos (filter_ne_nil_iff.2 (hmap collection))]
  · intro collection
    unfold OFMStorageManager.retrieveAsString
    rw [hquery]
    refine ⟨_, rfl, ?_⟩
    rw [Ne, List.map_eq_nil_iff, ← List.length_eq_zero_iff]
    exact filter_ne_nil_iff.2 (htext collection)
  · intro collection change changed hchanged
    obtain ⟨docs, hdocs⟩ := update_of_found (htext collection)
    refine ⟨query, docs, hquery, hdocs, ?_⟩
    unfold OFMStorageManager.updateText
    rw [hquery, hchanged]
    show some (true, (db.update query changed _).getD _) = _
    rw [hdocs]
    rfl
  · intro collection
    unfold OFMStorageManager.deleteText
    rw [hquery]
    dsimp only
    rw [if_pos (filter_ne_nil_iff.2 (htext collection))]
    exact ⟨_, rfl⟩

end

/-- The forms agree on the text of an object exactly if no number has a dot, and the text form reads at each place what
the map form writes there. Where the names of each object are distinct this is so exactly if the dots are in names. -/
theorem agree_iff (db : MongoDatabase) (hdb : db.Exact) (readValue : String → Option Entry) (hread : ReadsJson readValue)
    (toText : Entry → String) (r : String) (members : Members) (h : JsonText.read r.toList = .ok members) :
    (Agree db readValue toText r (.ofMembers members) ↔
      (∀ n ∈ Tree.memberNumbers members, '.' ∉ n) ∧ Alike (.object members) (.object members)) ∧
    (Distinct (.object members) →
      (Alike (.object members) (.object members) ↔ DotsInNames (.object members))) := by
  refine ⟨?_, Tree.alike_self_iff⟩
  have hdotless := read_dotless h
  have htext : (replaceDotToDotUtf r).toList = dotless r.toList := by
    rw [replaceDotToDotUtf_eq, String.toList_ofList]
  rw [agree_iff_document hdb]
  split_ifs at hdotless with hnumbers
  · have hnone : textQuery readValue r = none := hread.fails _ (htext ▸ hdotless)
    constructor
    · rintro ⟨query, hquery, -⟩
      exact nomatch hnone.symm.trans hquery
    · rintro ⟨hclean, -⟩
      obtain ⟨n, hn, hdot⟩ := hnumbers
      exact absurd hdot (hclean n hn)
  · have hquery : textQuery readValue r = some (.ofMembers (Tree.mapMembers Written.dotless dotless members)) :=
      hread.reads _ _ (htext ▸ hdotless)
    have hclean : ∀ n ∈ Tree.memberNumbers members, '.' ∉ n := fun n hn hdot => hnumbers ⟨n, hn, hdot⟩
    rw [and_iff_right hclean, ← Tree.textDocument_eq_iff]
    constructor
    · rintro ⟨query, hquery', hdocument⟩
      cases hquery.symm.trans hquery'
      exact hdocument
    · exact fun hdocument => ⟨_, hquery, hdocument⟩

/-- A reader of JSON and nothing else. -/
def readJson (s : String) : Option Entry :=
  match JsonText.read s.toList with
  | .ok members => some (.ofMembers members)
  | .error _ => none

theorem readsJson_readJson : ReadsJson readJson where
  reads s members h := by
    unfold readJson
    rw [h]
  fails s h := by
    unfold readJson
    rw [h]

open Classical in
/-- The database that finds the document that the query is, and puts another one in its place. -/
noncomputable def MongoDatabase.exact : MongoDatabase where
  finds query doc := query.document = doc.document
  updated _ change := change

theorem MongoDatabase.exact_exact : MongoDatabase.exact.Exact where
  congr query query' doc h := by
    simp [MongoDatabase.exact, h]
  self doc := by simp [MongoDatabase.exact]

/-- An object with one name and one string. -/
def oneMember (name value : String) (hname : unescape name.toList = .ok name.toList)
    (hvalue : unescape value.toList = .ok value.toList) : Members :=
  [(⟨name.toList, name.toList, hname⟩, .string ⟨value.toList, value.toList, hvalue⟩)]

theorem agree_dotInName : Agree MongoDatabase.exact readJson (fun _ => "") "\x7b\"a.b\":\"c\"\x7d"
    (.ofMembers (oneMember "a.b" "c" rfl rfl)) := by
  have hagree := agree_iff MongoDatabase.exact MongoDatabase.exact_exact readJson readsJson_readJson (fun _ => "")
    "\x7b\"a.b\":\"c\"\x7d" (oneMember "a.b" "c" rfl rfl) rfl
  refine hagree.1.2 ⟨by decide, (hagree.2 ?_).2 ?_⟩
  · refine .object (by decide) fun m hm => ?_
    obtain rfl := List.mem_singleton.1 hm
    exact .string _
  · refine .object ?_ fun name m hm => ?_
    · decide
    · obtain rfl := List.mem_singleton.1 (Tree.mem_of_textMember hm)
      exact .string (by decide)

/-- The string that a document has under a name. -/
def stringAt (name : String) : Document → Option String
  | .map get =>
    match get name with
    | some (.string s) => some s
    | _ => none
  | _ => none

/-- The dot of a string is written out in the document, and a number with a dot is not read. -/
theorem not_agree :
    ¬Agree MongoDatabase.exact readJson (fun _ => "") "\x7b\"a\":\"1.2\"\x7d"
      (.ofMembers (oneMember "a" "1.2" rfl rfl)) ∧
    (JsonText.read "\x7b\"a\":1.5\x7d".toList = .ok [(⟨['a'], ['a'], rfl⟩, .number ['1', '.', '5'])] ∧
      ∀ map, ¬Agree MongoDatabase.exact readJson (fun _ => "") "\x7b\"a\":1.5\x7d" map) := by
  refine ⟨fun h => ?_, rfl, fun map h => ?_⟩
  · obtain ⟨query, hquery, hdocument⟩ := h.document
    have hread : textQuery readJson "\x7b\"a\":\"1.2\"\x7d" =
        some (.ofMembers (oneMember "a" "1U+FF042" rfl rfl)) := rfl
    cases hread.symm.trans hquery
    exact absurd (congrArg (stringAt "a") hdocument) (by decide)
  · obtain ⟨query, hquery, -⟩ := h.document
    have hread : textQuery readJson "\x7b\"a\":1.5\x7d" = none := rfl
    exact nomatch hread.symm.trans hquery

end Torpedo
