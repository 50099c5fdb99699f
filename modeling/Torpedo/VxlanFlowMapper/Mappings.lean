import Torpedo.Util.Inverses
import Torpedo.VxlanFlowMapper.Manager
import Torpedo.VxlanFlowMapper.Notifications

/-!
# The two tables of flow mappings

What an event does to the two tables is read off it alone (`FlowMapper.tables_step`). The tables stay inverse,
and a removed flow takes just its own mapping out of both, if and only if no packet-in has the headers of a
mapped flow on one side and others on the other side (`FlowMapper.consistent_iff_clean`).
-/

namespace Torpedo

/-! ## Tables -/

/-- The mappings by the outer key, and by the inner key. -/
structure FlowTables where
  o2v : HashMap String OverlayFlowMappingEntry
  v2o : HashMap String OverlayFlowMappingEntry

/-- A change of the tables. -/
inductive FlowChange
  | learned (flowMapping : OverlayFlowMappingEntry)
  | forgotten (o2VKey : String)
deriving DecidableEq, Repr

namespace FlowTables

variable {t : FlowTables}

def empty : FlowTables := ⟨∅, ∅⟩

def apply (t : FlowTables) : FlowChange → FlowTables
  | .learned flowMapping =>
    ⟨t.o2v.put flowMapping.outerKey flowMapping, t.v2o.put flowMapping.v2OKey flowMapping⟩
  | .forgotten o2VKey =>
    ⟨t.o2v.remove o2VKey, match t.o2v.get o2VKey with
      | none => t.v2o
      | some flowMapping => t.v2o.remove flowMapping.v2OKey⟩

/-- The inner key that an outer key is mapped to. -/
def inner (t : FlowTables) (o2VKey : String) : Option String :=
  (t.o2v.get o2VKey).map OverlayFlowMappingEntry.v2OKey

/-- The outer key that an inner key is mapped back to. -/
def outer (t : FlowTables) (v2OKey : String) : Option String :=
  (t.v2o.get v2OKey).map OverlayFlowMappingEntry.outerKey

/-- The tables map to and fro. -/
def Consistent (t : FlowTables) : Prop := Inverses t.inner t.outer

/-- One side of a mapping is mapped to something else. -/
def Overlaps (t : FlowTables) (flowMapping : OverlayFlowMappingEntry) : Prop :=
  ¬((t.inner flowMapping.outerKey = none ∨ t.inner flowMapping.outerKey = some flowMapping.v2OKey) ∧
    (t.outer flowMapping.v2OKey = none ∨ t.outer flowMapping.v2OKey = some flowMapping.outerKey))

theorem consistent_empty : empty.Consistent := inverses_none

theorem apply_forgotten_none {o2VKey : String} (h : t.o2v.get o2VKey = none) :
    t.apply (.forgotten o2VKey) = ⟨t.o2v.remove o2VKey, t.v2o⟩ := by
  unfold apply
  dsimp only
  rw [h]

theorem apply_forgotten_some {o2VKey : String} {flowMapping : OverlayFlowMappingEntry}
    (h : t.o2v.get o2VKey = some flowMapping) :
    t.apply (.forgotten o2VKey) = ⟨t.o2v.remove o2VKey, t.v2o.remove flowMapping.v2OKey⟩ := by
  unfold apply
  dsimp only
  rw [h]

theorem inner_learned (flowMapping : OverlayFlowMappingEntry) : (t.apply (.learned flowMapping)).inner =
    Function.update t.inner flowMapping.outerKey (some flowMapping.v2OKey) := by
  funext o2VKey
  show ((t.o2v.put _ _).get o2VKey).map _ = _
  rw [HashMap.get_put, Function.update_apply]
  split_ifs <;> rfl

theorem outer_learned (flowMapping : OverlayFlowMappingEntry) : (t.apply (.learned flowMapping)).outer =
    Function.update t.outer flowMapping.v2OKey (some flowMapping.outerKey) := by
  funext v2OKey
  show ((t.v2o.put _ _).get v2OKey).map _ = _
  rw [HashMap.get_put, Function.update_apply]
  split_ifs <;> rfl

theorem inner_forgotten (o2VKey : String) :
    (t.apply (.forgotten o2VKey)).inner = Function.update t.inner o2VKey none := by
  funext o2VKey'
  show ((t.o2v.remove _).get o2VKey').map _ = _
  rw [HashMap.get_remove, Function.update_apply]
  split_ifs <;> rfl

theorem outer_forgotten_none {o2VKey : String} (h : t.inner o2VKey = none) :
    (t.apply (.forgotten o2VKey)).outer = t.outer := by
  rw [apply_forgotten_none (Option.map_eq_none_iff.1 h)]
  rfl

theorem outer_forgotten_some {o2VKey v2OKey : String} (h : t.inner o2VKey = some v2OKey) :
    (t.apply (.forgotten o2VKey)).outer = Function.update t.outer v2OKey none := by
  obtain ⟨flowMapping, hget, rfl⟩ := Option.map_eq_some_iff.1 h
  rw [apply_forgotten_some hget]
  funext v2OKey'
  show ((t.v2o.remove _).get v2OKey').map _ = _
  rw [HashMap.get_remove, Function.update_apply]
  split_ifs <;> rfl

/-- A mapping can be learned if and only if it overlaps with none. -/
theorem Consistent.learned_iff (h : t.Consistent) (flowMapping : OverlayFlowMappingEntry) :
    (t.apply (.learned flowMapping)).Consistent ↔ ¬t.Overlaps flowMapping := by
  unfold Consistent Overlaps
  rw [inner_learned, outer_learned, h.update_iff, not_not]

theorem Consistent.forgotten (h : t.Consistent) (o2VKey : String) :
    (t.apply (.forgotten o2VKey)).Consistent := by
  unfold Consistent
  rw [inner_forgotten]
  cases hinner : t.inner o2VKey with
  | none =>
    rw [outer_forgotten_none hinner, ← hinner, Function.update_eq_self]
    exact h
  | some v2OKey =>
    rw [outer_forgotten_some hinner]
    exact h.remove hinner

/-- The mapping of an outer key is in neither table any more, and all others are. -/
structure RemovesOnly (o2VKey : String) (t t' : FlowTables) : Prop where
  inner : ∀ o v, t'.inner o = some v ↔ t.inner o = some v ∧ o ≠ o2VKey
  outer : ∀ v o, t'.outer v = some o ↔ t.outer v = some o ∧ o ≠ o2VKey

theorem Consistent.removesOnly (h : t.Consistent) (o2VKey : String) :
    RemovesOnly o2VKey t (t.apply (.forgotten o2VKey)) := by
  have hinner : ∀ o v, (t.apply (.forgotten o2VKey)).inner o = some v ↔ t.inner o = some v ∧ o ≠ o2VKey := by
    intro o v
    rw [inner_forgotten, Function.update_apply]
    split_ifs with heq <;> simp [heq]
  refine ⟨hinner, fun v o => ?_⟩
  rw [← h o v, ← hinner]
  exact (h.forgotten o2VKey o v).symm

end FlowTables

/-! ## Events -/

namespace VxlanFlowMappingStorage

def tables {υ : Type} (s : VxlanFlowMappingStorage υ) : FlowTables := ⟨s.o2v, s.v2o⟩

end VxlanFlowMappingStorage

namespace FlowMapper

open VxlanFlowMappingStorage

variable {υ : Type} [DecidableEq υ] (p : FlowMapper) {s : VxlanFlowMappingStorage υ}

/-- The mapping that a packet-in is for. -/
def learnedOf (pi : FlowPacketIn υ) : Except Stop (Option OverlayFlowMappingEntry) := do
  let m ← loadMatch pi
  let vxlan ← p.isVxlan m
  if vxlan && pi.handshaked then some <$> p.mappingOf pi.data else return none

/-- What an event does to the tables, if it does anything. -/
def change : FlowEvent υ → Option FlowChange
  | .packetIn pi =>
    match p.learnedOf pi with
    | .ok (some flowMapping) => some (.learned flowMapping)
    | _ => none
  | .flowRemoved ofFlow _ =>
    match p.flowKey ofFlow with
    | .ok (some o2VKey) => some (.forgotten o2VKey)
    | _ => none
  | .register _ => none
  | .unregister _ => none

theorem tables_learn (delivers : υ → Bool) (flowMapping : OverlayFlowMappingEntry) :
    ∃ s', p.learn delivers flowMapping s = (.ok (), s') ∧ s'.tables = s.tables.apply (.learned flowMapping) := by
  unfold learn
  cases hget : s.o2v.get flowMapping.outerKey with
  | none => exact ⟨_, Method.bind_ok (addO2VEnrty_new flowMapping hget), rfl⟩
  | some old => exact ⟨_, Method.bind_ok (addO2VEnrty_old flowMapping hget), rfl⟩

theorem tables_forget (delivers : υ → Bool) (o2VKey : String) :
    ∃ s', p.forget delivers o2VKey s = (.ok (), s') ∧ s'.tables = s.tables.apply (.forgotten o2VKey) := by
  unfold forget getO2VEnrty
  rw [Method.get_bind_apply]
  cases hget : s.o2v.get o2VKey with
  | none =>
    have htables : s.tables.apply (.forgotten o2VKey) = _ := FlowTables.apply_forgotten_none hget
    exact ⟨_, Method.bind_ok (removeO2VEnrty_none hget), htables.symm⟩
  | some flowMapping =>
    have htables : s.tables.apply (.forgotten o2VKey) = _ := FlowTables.apply_forgotten_some hget
    have hget' : ({ s with v2o := s.v2o.remove flowMapping.v2OKey } : VxlanFlowMappingStorage υ).o2v.get o2VKey =
      some flowMapping := hget
    exact ⟨_, Method.bind_ok (removeO2VEnrty_some hget'), htables.symm⟩

theorem tables_handlePacketIn (pi : FlowPacketIn υ) :
    (p.handlePacketIn pi s).2.tables = (p.change (.packetIn pi)).elim s.tables s.tables.apply := by
  unfold handlePacketIn change
  dsimp only
  unfold learnedOf processPacketInMessage
  generalize loadMatch pi = load
  cases load with
  | error e => rfl
  | ok m =>
    rw [Method.ofExcept_ok, Method.pure_bind]
    have hloaded : ∀ f : Match → Except Stop (Option OverlayFlowMappingEntry), (Except.ok m >>= f) = f m :=
      fun _ => rfl
    rw [hloaded]
    generalize p.isVxlan m = vxlan
    cases vxlan with
    | error e => rfl
    | ok vxlan =>
      rw [Method.ofExcept_ok, Method.pure_bind]
      generalize pi.handshaked = handshaked
      generalize p.mappingOf pi.data = mapping
      cases vxlan with
      | false => rfl
      | true =>
        cases handshaked with
        | false => rfl
        | true =>
          cases mapping with
          | error e => rfl
          | ok flowMapping =>
            obtain ⟨s', hlearn, htables⟩ := p.tables_learn (s := s) pi.delivers flowMapping
            have hrun : (do
                p.learn pi.delivers flowMapping
                return true : Method (VxlanFlowMappingStorage υ) Bool) s = (.ok true, s') :=
              Method.bind_ok hlearn
            exact (congrArg (tables ·.2) hrun).trans htables

/-- An event does to the tables what is read off it, whatever else the state is. -/
theorem tables_step (e : FlowEvent υ) :
    (p.step s e).tables = (p.change e).elim s.tables s.tables.apply := by
  cases e with
  | packetIn pi => exact p.tables_handlePacketIn pi
  | flowRemoved ofFlow delivers =>
    unfold step change processFlowRemoved
    dsimp only
    cases hkey : p.flowKey ofFlow with
    | error e => rfl
    | ok key =>
      cases key with
      | none => rfl
      | some o2VKey =>
        obtain ⟨s', hforget, htables⟩ := p.tables_forget (s := s) delivers o2VKey
        have hrun : (do
            p.forget delivers o2VKey
            return true : Method (VxlanFlowMappingStorage υ) Bool) s = (.ok true, s') := Method.bind_ok hforget
        exact (congrArg (tables ·.2) hrun).trans htables
  | register url => rfl
  | unregister url => rfl

/-! ## Runs -/

/-- A packet-in whose mapping overlaps with another. -/
def OverlapsAt (s : VxlanFlowMappingStorage υ) (e : FlowEvent υ) : Prop :=
  ∃ flowMapping, p.change e = some (.learned flowMapping) ∧ s.tables.Overlaps flowMapping

/-- A packet-in keeps the tables inverse if and only if its mapping does not overlap, and all other events do. -/
theorem consistent_step_iff (h : s.tables.Consistent) (e : FlowEvent υ) :
    (p.step s e).tables.Consistent ↔ ¬p.OverlapsAt s e := by
  rw [p.tables_step e]
  unfold OverlapsAt
  cases hchange : p.change e with
  | none => exact iff_of_true h nofun
  | some c =>
    cases c with
    | learned flowMapping =>
      refine (h.learned_iff flowMapping).trans (not_congr ⟨fun hover => ⟨flowMapping, rfl, hover⟩, ?_⟩)
      rintro ⟨_, ⟨⟩, hover⟩
      exact hover
    | forgotten o2VKey => exact iff_of_true (h.forgotten o2VKey) nofun

/-- A flow that is removed takes its own mapping out of both tables, and no other. -/
theorem removesOnly_step (h : s.tables.Consistent) {ofFlow : Match} {o2VKey : String}
    (hkey : p.flowKey ofFlow = .ok (some o2VKey)) (delivers : υ → Bool) :
    FlowTables.RemovesOnly o2VKey s.tables (p.step s (.flowRemoved ofFlow delivers)).tables := by
  have hchange : p.change (.flowRemoved ofFlow delivers) = some (.forgotten o2VKey) := by
    unfold change
    dsimp only
    rw [hkey]
  rw [p.tables_step, hchange]
  exact h.removesOnly o2VKey

/-- The tables are inverse all along a run, and each removed flow takes just its own mapping out, if and only if
no packet-in overlaps. -/
theorem consistent_iff_clean (es : List (FlowEvent υ)) :
    ((∀ pre post, es = pre ++ post → (Machine.run p.step .initial pre).tables.Consistent) ∧
      ∀ pre ofFlow delivers post o2VKey, es = pre ++ .flowRemoved ofFlow delivers :: post →
        p.flowKey ofFlow = .ok (some o2VKey) →
          FlowTables.RemovesOnly o2VKey (Machine.run p.step .initial pre).tables
            (p.step (Machine.run p.step .initial pre) (.flowRemoved ofFlow delivers)).tables) ↔
      Machine.Clean p.step p.OverlapsAt .initial es := by
  have hrun : (∀ pre post, es = pre ++ post → (Machine.run p.step .initial pre).tables.Consistent) ↔
      Machine.Clean p.step p.OverlapsAt .initial es :=
    Machine.always_iff_clean (I := fun _ => True)
      (P := fun s : VxlanFlowMappingStorage υ => s.tables.Consistent) (fun _ _ _ => trivial)
      (fun s e _ h hover => (p.consistent_step_iff h e).2 hover)
      (fun s e _ h hover hnew => (p.consistent_step_iff h e).1 hnew hover) trivial FlowTables.consistent_empty
  refine ⟨fun h => hrun.1 h.1, fun hclean => ⟨hrun.2 hclean, ?_⟩⟩
  intro pre ofFlow delivers post o2VKey hes hkey
  exact p.removesOnly_step (hrun.2 hclean pre _ hes) hkey delivers

/-- A packet of a VXLAN, with a ping in it. -/
def vxlanFrame (outerSrcPort vnid : UInt8) : List UInt8 :=
  [0, 0, 0, 0, 0, 2, 0, 0, 0, 0, 0, 1, 8, 0] ++
    [0x45, 0, 0, 78, 0, 0, 0, 0, 64, 17, 0, 0, 10, 0, 0, 1, 10, 0, 0, 2] ++
    [200, outerSrcPort, 0x12, 0xb5, 0, 58, 0, 0] ++ [8, 0, 0, 0, 0, 0, vnid, 0] ++
    [0, 0, 0, 0, 1, 2, 0, 0, 0, 0, 1, 1, 8, 0] ++
    [0x45, 0, 0, 28, 0, 0, 0, 0, 64, 1, 0, 0, 192, 168, 0, 1, 192, 168, 0, 2] ++ [8, 0, 0, 0, 0, 0, 0, 0]

def vxlanPacketIn (outerSrcPort vnid : UInt8) : FlowEvent String :=
  .packetIn ⟨.of10, true, 1, none, vxlanFrame outerSrcPort vnid, fun _ => true⟩

/-- Addresses and numbers are written as usual. -/
def usual : FlowMapper where
  vxlanPortNumber := 4789
  order := .insertion
  macText a := ":".intercalate (a.map MACAddress.hexByte)
  ipText a := ".".intercalate ([a >>> 24, a >>> 16 &&& 0xff, a >>> 8 &&& 0xff, a &&& 0xff].map (·.toNat.repr))
  portText n := n.toNat.repr
  etherTypeText n := some ("0x" ++ String.ofList (Nat.toDigits 16 n.toNat))

/-- The inner flow is sent from another port of the outer sender. -/
theorem not_consistent_twoPorts : ¬∀ (p : FlowMapper) (es : List (FlowEvent String)),
    (∀ pre post, es = pre ++ post → (Machine.run p.step .initial pre).tables.Consistent) ∧
      ∀ pre ofFlow delivers post o2VKey, es = pre ++ .flowRemoved ofFlow delivers :: post →
        p.flowKey ofFlow = .ok (some o2VKey) →
          FlowTables.RemovesOnly o2VKey (Machine.run p.step .initial pre).tables
            (p.step (Machine.run p.step .initial pre) (.flowRemoved ofFlow delivers)).tables := by
  intro h
  have hfirst := (h usual [vxlanPacketIn 1 7, vxlanPacketIn 2 7]).1 [vxlanPacketIn 1 7] _ rfl
  have hboth := (h usual [vxlanPacketIn 1 7, vxlanPacketIn 2 7]).1 [vxlanPacketIn 1 7, vxlanPacketIn 2 7] [] rfl
  refine (usual.consistent_step_iff hfirst (vxlanPacketIn 2 7)).1 hboth ?_
  refine ⟨mappingOver "51202" "7", rfl, fun hover => ?_⟩
  rw [Machine.run_cons, Machine.run_nil, usual.tables_step,
    show usual.change (vxlanPacketIn 1 7) = some (.learned (mappingOver "51201" "7")) from rfl] at hover
  exact absurd hover.2 (by decide)

end FlowMapper

end Torpedo
