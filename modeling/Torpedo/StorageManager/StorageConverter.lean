import Torpedo.Util.Collections

/-!
# Values of the storage

`StorageConverter` makes a document of a map, in which the keys have no dots, and a map of a document again.
The id that the database gives to a document is left out.
-/

namespace Torpedo

/-! ## Values -/

/-- What a map of JSON holds. A number is its text; the keys of a map are distinct. -/
inductive Value
  | null
  | boolean (b : Bool)
  | number (text : String)
  | string (s : String)
  | list (vs : List Value)
  | map (fields : List (Sigma fun _ : String => Value))

abbrev Fields := List (Sigma fun _ : String => Value)

abbrev Entry := HashMap String Value

namespace Value

mutual

/-- `toString` of an object. That of null throws. -/
def toText : Value → String
  | null => "null"
  | boolean b => toString b
  | number text => text
  | string s => s
  | list vs => "[" ++ ", ".intercalate (listToTexts vs) ++ "]"
  | map fields => "\x7b" ++ ", ".intercalate (mapToTexts fields) ++ "\x7d"

def listToTexts : List Value → List String
  | [] => []
  | v :: vs => toText v :: listToTexts vs

def mapToTexts : Fields → List String
  | [] => []
  | ⟨k, v⟩ :: fields => (k ++ "=" ++ toText v) :: mapToTexts fields

end

/-- The string that a value is cast to. -/
def asString : Value → Option String
  | string s => some s
  | _ => none

end Value

/-! ## Conversion -/

namespace StorageConverter

def dotString : String := "U+FF04"

def replaceDotToDotUtf (original : String) : String :=
  String.ofList (original.toList.flatMap fun c => if c = '.' then dotString.toList else [c])

/-- Each occurrence of the string for a dot, from the left. -/
def replaceUtf : List Char → List Char
  | 'U' :: '+' :: 'F' :: 'F' :: '0' :: '4' :: cs => '.' :: replaceUtf cs
  | c :: cs => c :: replaceUtf cs
  | [] => []

def replaceDotUtfToDot (original : String) : String := String.ofList (replaceUtf original.toList)

/-- A key as it is written, and as it is read. -/
def replaceKey (dot : Bool) (k : String) : String :=
  if dot then replaceDotToDotUtf k else replaceDotUtfToDot k

mutual

def traverse (dot : Bool) : Value → Value
  | .list vs => .list (listTraverse dot vs)
  | .map fields => .map (jsonTraverse dot [] fields)
  | v => v

/-- The fields are put into the result one by one. -/
def jsonTraverse (dot : Bool) (result : Fields) : Fields → Fields
  | [] => result
  | ⟨r, o⟩ :: fields =>
    if dot = false ∧ r = "_id" then jsonTraverse dot result fields
    else jsonTraverse dot (result.kinsert (replaceKey dot r) (traverse dot o)) fields

def listTraverse (dot : Bool) : List Value → List Value
  | [] => []
  | v :: vs => traverse dot v :: listTraverse dot vs

end

theorem nodupKeys_jsonTraverse (dot : Bool) {result : Fields} (h : result.NodupKeys) (fields : Fields) :
    (jsonTraverse dot result fields).NodupKeys := by
  induction fields generalizing result with
  | nil => exact h
  | cons field fields ih =>
    obtain ⟨r, o⟩ := field
    unfold jsonTraverse
    split_ifs
    · exact ih h
    · exact ih (List.kinsert_nodupKeys _ _ h)

def mapToDBObject (map : Entry) : Entry :=
  ⟨jsonTraverse true [] map.entries, nodupKeys_jsonTraverse true List.nodupKeys_nil _⟩

def dbObjectToMap (dbObject : Entry) : Entry :=
  ⟨jsonTraverse false [] dbObject.entries, nodupKeys_jsonTraverse false List.nodupKeys_nil _⟩

/-! ## Keys -/

/-- A key that neither conversion changes, or makes of another key. -/
def Plain (k : String) : Prop := '.' ∉ k.toList ∧ '+' ∉ k.toList ∧ k ≠ "_id"

instance (k : String) : Decidable (Plain k) := inferInstanceAs (Decidable (_ ∧ _))

theorem replaceUtf_eq_self {cs : List Char} (h : '.' ∉ replaceUtf cs ∨ '+' ∉ cs) : replaceUtf cs = cs := by
  induction cs using replaceUtf.induct with
  | case1 cs ih => simp [replaceUtf] at h
  | case2 c cs hnot ih =>
    rw [replaceUtf.eq_2 c cs hnot] at h ⊢
    refine congrArg (c :: ·) (ih ?_)
    exact h.imp (fun hdot hmem => hdot (List.mem_cons_of_mem _ hmem))
      fun hplus hmem => hplus (List.mem_cons_of_mem _ hmem)
  | case3 => rfl

theorem replaceDot_eq_self {cs : List Char}
    (h : '+' ∉ (cs.flatMap fun c => if c = '.' then dotString.toList else [c]) ∨ '.' ∉ cs) :
    (cs.flatMap fun c => if c = '.' then dotString.toList else [c]) = cs := by
  induction cs with
  | nil => rfl
  | cons c cs ih =>
    rw [List.flatMap_cons, List.mem_append, not_or, List.mem_cons, not_or] at h
    have hdot : c ≠ '.' := by
      rintro rfl
      exact h.elim (fun h => h.1 (by decide)) fun h => h.1 rfl
    rw [List.flatMap_cons, ih (h.imp And.right And.right), if_neg hdot]
    rfl

/-- A key without dots and plus signs is made of itself alone. -/
theorem replaceKey_eq_iff {k : String} (hdot : '.' ∉ k.toList) (hplus : '+' ∉ k.toList) (dot : Bool) (r : String) :
    replaceKey dot r = k ↔ r = k := by
  unfold replaceKey replaceDotToDotUtf replaceDotUtfToDot
  cases dot with
  | true =>
    rw [if_pos rfl]
    constructor
    · rintro rfl
      rw [String.toList_ofList] at hplus
      rw [replaceDot_eq_self (.inl hplus), String.ofList_toList]
    · rintro rfl
      rw [replaceDot_eq_self (.inr hdot), String.ofList_toList]
  | false =>
    rw [if_neg (by decide)]
    constructor
    · rintro rfl
      rw [String.toList_ofList] at hdot
      rw [replaceUtf_eq_self (.inl hdot), String.ofList_toList]
    · rintro rfl
      rw [replaceUtf_eq_self (.inr hplus), String.ofList_toList]

theorem dlookup_jsonTraverse {k : String} (hk : Plain k) (dot : Bool) (result : Fields) {fields : Fields}
    (hfields : fields.NodupKeys) : (jsonTraverse dot result fields).dlookup k =
      ((fields.dlookup k).map (traverse dot)).or (result.dlookup k) := by
  induction fields generalizing result with
  | nil => rfl
  | cons field fields ih =>
    obtain ⟨r, o⟩ := field
    obtain ⟨hr, hfields⟩ := List.nodupKeys_cons.1 hfields
    unfold jsonTraverse
    by_cases heq : r = k
    · subst heq
      have hnone : fields.dlookup r = none := List.dlookup_eq_none.2 hr
      rw [if_neg fun h => hk.2.2 h.2, ih _ hfields, (replaceKey_eq_iff hk.1 hk.2.1 dot r).2 rfl, List.dlookup_kinsert,
        List.dlookup_cons_eq, hnone]
      rfl
    · have hne : k ≠ replaceKey dot r := fun h => heq ((replaceKey_eq_iff hk.1 hk.2.1 dot r).1 h.symm)
      have hskip : List.dlookup k (⟨r, o⟩ :: fields) = fields.dlookup k :=
        List.dlookup_cons_ne _ _ fun h => heq h.symm
      rw [hskip]
      split_ifs
      · exact ih _ hfields
      · rw [ih _ hfields, List.dlookup_kinsert_ne hne]

theorem get_mapToDBObject {k : String} (hk : Plain k) (map : Entry) :
    (mapToDBObject map).get k = (map.get k).map (traverse true) :=
  (dlookup_jsonTraverse hk true [] map.nodupKeys).trans (Option.or_none ..)

theorem get_dbObjectToMap {k : String} (hk : Plain k) (dbObject : Entry) :
    (dbObjectToMap dbObject).get k = (dbObject.get k).map (traverse false) :=
  (dlookup_jsonTraverse hk false [] dbObject.nodupKeys).trans (Option.or_none ..)

end StorageConverter

end Torpedo
