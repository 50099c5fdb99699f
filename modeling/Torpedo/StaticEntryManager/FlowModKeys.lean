import Torpedo.StaticEntryManager.FlowMods

/-!
# The keys of a flow-mod

The loop of `makeFlowMod` reads the settings of an entry and gathers the keys of its match. It makes a flow-mod
that says what the entry says of the entries that are `Taken`.
-/

namespace Torpedo.StaticFlowEntry

variable {ι : Type} (fac : OFFactory ι) (entry : Entry)

/-! ## What a key is to the loop -/

def settings : List Setting := [.tableId, .idleTimeout, .hardTimeout, .priority]

/-- What the loop has to be able to read of a key. -/
structure KeyTaken (key : String) : Prop where
  active : key = "active" → ∀ v, Has entry "active" v → ∃ s, v = .string s ∧ toLowerCase s = "true"
  instructions : key = "instructions" → ∀ v, Has entry "instructions" v →
    ∃ instructions, fac.makeInstructions v = .ok instructions
  setting : ∀ setting : Setting, setting.name = key → ∀ v, Has entry setting.name v →
    ∃ s n, v = .string s ∧ fac.characters.parse 10 s = some n ∧ n < 2 ^ (setting.bits - 1)

/-- The number of a setting in a flow-mod once its key is read. -/
def settingOf (setting : Setting) (old : Option ℤ) : Option ℤ :=
  if setting = .tableId ∧ ¬fac.hasTableId then old
  else (((entry.get setting.name).bind Value.spelling).bind (fac.characters.parse 10)).or old

/-- What the keys make of the flow-mod and of the keys of the match. -/
structure Reads (keys : List String) (flowmod flowmod' : FlowMod ι) (matchkeys matchkeys' : List String) : Prop where
  matchkeys : ∀ key, key ∈ matchkeys' ↔ key ∈ matchkeys ∨ key ∈ keys ∧ isMatchKey key ∧ Given entry key
  setting : ∀ setting : Setting, flowmod'.get setting =
    if setting.name ∈ keys then settingOf fac entry setting (flowmod.get setting) else flowmod.get setting

variable {fac entry} {flowmod flowmod' : FlowMod ι} {matchkeys matchkeys' : List String} {v : Value}

theorem settingOf_settingOf (setting : Setting) (old : Option ℤ) :
    settingOf fac entry setting (settingOf fac entry setting old) = settingOf fac entry setting old := by
  unfold settingOf
  split_ifs with h
  · rfl
  · cases ((entry.get setting.name).bind Value.spelling).bind (fac.characters.parse 10) <;> rfl

/-- What was read of some keys, and then of others. -/
theorem Reads.append {keys rest : List String} {flowmod'' : FlowMod ι} {matchkeys'' : List String}
    (h : Reads fac entry keys flowmod flowmod' matchkeys matchkeys')
    (hrest : Reads fac entry rest flowmod' flowmod'' matchkeys' matchkeys'') :
    Reads fac entry (keys ++ rest) flowmod flowmod'' matchkeys matchkeys'' where
  matchkeys key := by
    rw [hrest.matchkeys, h.matchkeys, List.mem_append]
    tauto
  setting setting := by
    rw [hrest.setting, h.setting]
    simp only [List.mem_append]
    by_cases hmem : setting.name ∈ keys <;> by_cases hmem' : setting.name ∈ rest <;>
      simp [hmem, hmem', settingOf_settingOf]

/-! ## One key -/

/-- The flow-mod with this number for the setting. -/
def FlowMod.put (flowmod : FlowMod ι) (n : ℤ) : Setting → FlowMod ι
  | .tableId => { flowmod with tableId := some n }
  | .idleTimeout => { flowmod with idleTimeout := n }
  | .hardTimeout => { flowmod with hardTimeout := n }
  | .priority => { flowmod with priority := n }

theorem FlowMod.get_put (flowmod : FlowMod ι) (n : ℤ) (setting other : Setting) :
    (flowmod.put n setting).get other = if other = setting then some n else flowmod.get other := by
  cases setting <;> cases other <;> rfl

/-- The flow-mod that a setting is read into. -/
def FlowMod.read (fac : OFFactory ι) (flowmod : FlowMod ι) (n : ℤ) (setting : Setting) : FlowMod ι :=
  if setting = .tableId ∧ ¬fac.hasTableId then flowmod else flowmod.put n setting

variable (fac entry) in
/-- The key is read if it can be, and what is read of it is what the entry says. -/
def ReadsKey (flowmod : FlowMod ι) (matchkeys : List String) (key : String) : Prop :=
  (KeyTaken fac entry key → ∃ r, readKey fac entry flowmod matchkeys key = .ok (some r)) ∧
    ∀ flowmod' matchkeys', readKey fac entry flowmod matchkeys key = .ok (some (flowmod', matchkeys')) →
      KeyTaken fac entry key ∧ Reads fac entry [key] flowmod flowmod' matchkeys matchkeys'

theorem ReadsKey.of_eq {key : String} (htaken : KeyTaken fac entry key)
    (heq : readKey fac entry flowmod matchkeys key = .ok (some (flowmod', matchkeys')))
    (hreads : Reads fac entry [key] flowmod flowmod' matchkeys matchkeys') :
    ReadsKey fac entry flowmod matchkeys key := by
  refine ⟨fun _ => ⟨_, heq⟩, fun _ _ h => ?_⟩
  cases heq.symm.trans h
  exact ⟨htaken, hreads⟩

theorem Given.mem_keySet {name : String} (h : Given entry name) : name ∈ entry.keySet := by
  obtain ⟨v, hv, -⟩ := h
  exact (HashMap.mem_keySet_iff _).2 ⟨v, hv⟩

theorem Taken.readable (h : Taken fac entry) {field : MatchField} (hv : Has entry field.name v) :
    Readable fac field v where
  string hkind := h.string field v hkind hv
  inPort hport n hn := by
    subst hport
    exact h.inPort v n hv hn
  ofNumber hkind n hn := h.ofNumber field v n hkind hv hn
  openPrefix hkind hc := h.openPrefix field v hkind hv hc

/-- The keys of the match are those of the fields that are given. -/
theorem Reads.mem_iff {flowmod : FlowMod ι} (h : Reads fac entry entry.keySet (defaultFlowMod fac .add) flowmod [] matchkeys)
    {key : String} : key ∈ matchkeys ↔ isMatchKey key ∧ Given entry key := by
  rw [h.matchkeys]
  constructor
  · rintro (hmem | hmem)
    · exact nomatch hmem
    · exact hmem.2
  · rintro ⟨hmatch, hgiven⟩
    exact .inr ⟨hgiven.mem_keySet, hmatch, hgiven⟩

variable (fac entry) in
/-- Each slot of the match is free, and no field of the entry is kept there, or is as a field of the entry says. -/
def Filled (m : FlowMatch) : Prop := ∀ slot,
  (m.get slot = none ∧ ∀ field : MatchField, Given entry field.name → slotOf fac entry field ≠ some slot) ∨
    ∃ (field : MatchField) (v : Value), Has entry field.name v ∧ slotOf fac entry field = some slot ∧
      fac.constraintOf field v = some (m.get slot)

/-- An entry of two fields beside the name and the switch. -/
def entryOf (field value field' value' : String) : Entry :=
  (((HashMap.put ∅ "name" (.string "flow")).put "switch" (.string "00:00:00:00:00:00:00:01")).put field
    (.string value)).put field' (.string value')

end Torpedo.StaticFlowEntry
