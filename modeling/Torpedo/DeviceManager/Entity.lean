import Mathlib.Data.List.Sort
import Torpedo.LinkDiscovery.Link
import Torpedo.Util.BinarySearch

/-!
# Entities

An `Entity` is the trace of a host in a packet: its addresses and the switch port where it was seen.
Entities are ordered by `compareTo` on five fields, three of which may be absent, and are filed
under the key fields of their class, the MAC address and the VLAN.
-/

namespace Torpedo

/-- `Entity`. What `null` is for the optional fields is `none`. -/
structure Entity where
  macAddress : Int64
  vlan : Option Int16
  ipv4Address : Option Int32
  switchDPID : Option Dpid
  switchPort : Option OFPort
  lastSeenTimestamp : Int
  activeSince : Int
deriving DecidableEq, Repr

/-- `OFPort.compareTo`, a comparison of port numbers in some total order. -/
structure PortOrder where
  compareTo : OFPort → OFPort → Ordering
  trans : Std.TransCmp compareTo
  eq : Std.LawfulEqCmp compareTo

namespace PortOrder

/-- The order of the port numbers as unsigned integers. -/
def unsigned : PortOrder where
  compareTo p q := compare p.toUInt32 q.toUInt32
  trans := inferInstanceAs (Std.TransCmp (compareOn Int32.toUInt32))
  eq := by
    have hrefl : Std.ReflCmp fun p q : OFPort => compare p.toUInt32 q.toUInt32 :=
      inferInstanceAs (Std.ReflCmp (compareOn Int32.toUInt32))
    refine { hrefl with eq_of_compare := fun {p q} h => ?_ }
    have hu : p.toUInt32 = q.toUInt32 := Std.LawfulEqOrd.eq_of_compare h
    exact congrArg UInt32.toInt32 hu

end PortOrder

namespace Entity

/-- A new entity. -/
def new (macAddress : Int64) (vlan : Option Int16) (ipv4Address : Option Int32)
    (switchDPID : Option Dpid) (switchPort : Option OFPort) (lastSeenTimestamp : Int) : Entity :=
  ⟨macAddress, vlan, ipv4Address, switchDPID, switchPort, lastSeenTimestamp, lastSeenTimestamp⟩

def ACTIVITY_TIMEOUT : Int := 30000

def setLastSeenTimestamp (e : Entity) (lastSeenTimestamp : Int) : Entity :=
  { e with
    activeSince :=
      if e.activeSince + ACTIVITY_TIMEOUT < lastSeenTimestamp then lastSeenTimestamp
      else e.activeSince
    lastSeenTimestamp := lastSeenTimestamp }

/-- `equals`: the same fields but for the times. -/
def equals (e o : Entity) : Bool :=
  e.ipv4Address = o.ipv4Address && e.macAddress = o.macAddress && e.switchDPID = o.switchDPID &&
    e.switchPort = o.switchPort && e.vlan = o.vlan

/-- The comparison of two optional fields, absent ones first. -/
def compareField {α : Type} (cmp : α → α → Ordering) : Option α → Option α → Ordering
  | none, none => .eq
  | none, some _ => .lt
  | some _, none => .gt
  | some a, some b => cmp a b

/-- `compareTo`. -/
def compareTo (ports : PortOrder) (e o : Entity) : Ordering :=
  if e.macAddress < o.macAddress then .lt
  else if e.macAddress > o.macAddress then .gt
  else
    (compareField compare e.switchDPID o.switchDPID).then <|
    (compareField ports.compareTo e.switchPort o.switchPort).then <|
    (compareField compare e.ipv4Address o.ipv4Address).then <|
    compareField compare e.vlan o.vlan

end Entity

/-! ## Key fields -/

/-- `IndexedEntity` over the key fields of the default classifier, MAC address and VLAN. -/
structure IndexedEntity where
  macAddress : Int64
  vlan : Option Int16
deriving DecidableEq, Repr

/-- The key fields of an entity. -/
def Entity.indexed (e : Entity) : IndexedEntity := ⟨e.macAddress, e.vlan⟩

/-! ## The order of entities -/

section Order

variable {α : Type} {cmp : α → α → Ordering}

instance [h : Std.TransCmp cmp] : Std.TransCmp (Entity.compareField cmp) where
  eq_swap {a b} := by
    cases a <;> cases b
    · rfl
    · rfl
    · rfl
    · exact h.eq_swap
  isLE_trans {a b c} hab hbc := by
    cases a <;> cases b <;> cases c <;> first | rfl | cases hab | cases hbc | skip
    exact h.isLE_trans hab hbc

theorem compareField_eq_eq [Std.LawfulEqCmp cmp] {a b : Option α} :
    Entity.compareField cmp a b = .eq ↔ a = b := by
  cases a <;> cases b
  · simp [Entity.compareField]
  · simp [Entity.compareField]
  · simp [Entity.compareField]
  · simp [Entity.compareField, Std.LawfulEqCmp.compare_eq_iff_eq]

end Order

namespace Entity

variable {ports : PortOrder} {e o : Entity}

/-- `compareTo` compares one field after the other. -/
theorem compareTo_eq (ports : PortOrder) :
    compareTo ports = compareLex (fun e o => compare e.macAddress o.macAddress)
      (compareLex (fun e o => compareField compare e.switchDPID o.switchDPID)
        (compareLex (fun e o => compareField ports.compareTo e.switchPort o.switchPort)
          (compareLex (fun e o => compareField compare e.ipv4Address o.ipv4Address)
            fun e o => compareField compare e.vlan o.vlan))) := by
  funext e o
  unfold compareTo compareLex
  show _ = (compareOfLessAndEq e.macAddress o.macAddress).then _
  unfold compareOfLessAndEq
  split_ifs with h₁ h₂ h₃ h₃
  · rfl
  · exact absurd h₂ (h₃ ▸ Int64.lt_irrefl)
  · rfl
  · rfl
  · exact absurd (Int64.le_antisymm (Int64.not_lt.1 h₂) (Int64.not_lt.1 h₁)) h₃

/-- Comparing by a field is a transitive comparison. -/
theorem transCmp_field {β : Type} (cmp : β → β → Ordering) [Std.TransCmp cmp] (f : Entity → β) :
    Std.TransCmp fun e o => cmp (f e) (f o) where
  eq_swap := Std.OrientedCmp.eq_swap
  isLE_trans := Std.TransCmp.isLE_trans

theorem transCmp_compareTo (ports : PortOrder) : Std.TransCmp (compareTo ports) := by
  have := ports.trans
  have := transCmp_field compare macAddress
  have := transCmp_field (compareField compare) switchDPID
  have := transCmp_field (compareField ports.compareTo) switchPort
  have := transCmp_field (compareField compare) ipv4Address
  have := transCmp_field (compareField compare) vlan
  rw [compareTo_eq]
  infer_instance

/-- Two entities compare equal if and only if they are equal. -/
theorem compareTo_eq_eq : compareTo ports e o = .eq ↔ e.equals o = true := by
  have := ports.eq
  rw [compareTo_eq]
  unfold compareLex equals
  simp only [Ordering.then_eq_eq, compareField_eq_eq, Std.compare_eq_iff_eq, Bool.and_eq_true,
    decide_eq_true_eq]
  tauto

theorem equals_comm (e o : Entity) : e.equals o = o.equals e := by
  unfold equals
  simp only [eq_comm]

@[simp] theorem equals_self (e : Entity) : e.equals e = true := by
  unfold equals
  simp

end Entity

/-! ## Sorted arrays of entities -/

/-- `Arrays.sort` of an array of entities. -/
def sortEntities (ports : PortOrder) (es : List Entity) : List Entity :=
  es.insertionSort fun e o => Entity.compareTo ports e o ≠ .gt

/-- Strictly sorted by `compareTo`. -/
def SortedEntities (ports : PortOrder) (es : List Entity) : Prop :=
  es.Pairwise fun e o => Entity.compareTo ports e o = .lt

section Arrays

variable {ports : PortOrder} {es : List Entity} {e : Entity}

theorem perm_sortEntities : (sortEntities ports es).Perm es := List.perm_insertionSort _ es

theorem mem_sortEntities : e ∈ sortEntities ports es ↔ e ∈ es := perm_sortEntities.mem_iff

/-- Sorting entities no two of which are equal sorts them strictly. -/
theorem sorted_sortEntities (h : es.Pairwise fun e o => e.equals o = false) :
    SortedEntities ports (sortEntities ports es) := by
  have hcmp := Entity.transCmp_compareTo ports
  refine pairwise_lt_insertionSort (h.imp ?_)
  intro e o he heq
  rw [Entity.compareTo_eq_eq.1 heq] at he
  cases he

theorem SortedEntities.not_equals (h : SortedEntities ports es) :
    es.Pairwise fun e o => e.equals o = false := by
  refine h.imp ?_
  intro e o hlt
  cases he : e.equals o with
  | false => rfl
  | true =>
    rw [Entity.compareTo_eq_eq.2 he] at hlt
    cases hlt

/-- `entityIndex`. -/
def entityIndex (ports : PortOrder) (es : List Entity) (e : Entity) : ℤ :=
  binarySearch (Entity.compareTo ports) es e

/-- In a sorted array `entityIndex` finds an entity if and only if an equal one is there. -/
theorem entityIndex_nonneg_iff (h : SortedEntities ports es) :
    0 ≤ entityIndex ports es e ↔ ∃ o ∈ es, o.equals e = true := by
  have := Entity.transCmp_compareTo ports
  unfold entityIndex
  rw [binarySearch_nonneg_iff h]
  simp only [Entity.compareTo_eq_eq]

theorem entityIndex_sound (h : 0 ≤ entityIndex ports es e) :
    ∃ i o, entityIndex ports es e = (i : ℕ) ∧ es[i]? = some o ∧ o.equals e = true := by
  obtain ⟨i, o, hi, ho, heq⟩ := binarySearch_sound h
  exact ⟨i, o, hi, ho, Entity.compareTo_eq_eq.1 heq⟩

end Arrays

end Torpedo
