import Torpedo.DeviceManager.Entity

/-!
# Entities as keys

`compareTo` is a total order on entities, its equality is `equals`, and equal entities have the same hash code.
An entity keeps its hash code once it has been asked for it.
-/

namespace Torpedo

/-- `Long.hashCode`. -/
def hashLong (n : Int64) : Int32 := (n.toUInt64 ^^^ n.toUInt64 >>> 32).toUInt32.toInt32

/-- `OFPort.hashCode`. -/
def OFPort.hashCode (port : OFPort) : Int32 := 53 + port

namespace Entity

/-- What `hashCode` computes from the fields. -/
def computeHashCode (e : Entity) : Int32 :=
  let prime : Int32 := 31
  let hashCode := prime * 1 + e.ipv4Address.elim 0 id
  let hashCode := prime * hashCode + hashLong e.macAddress
  let hashCode := prime * hashCode + e.switchDPID.elim 0 hashLong
  let hashCode := prime * hashCode + e.switchPort.elim 0 OFPort.hashCode
  prime * hashCode + e.vlan.elim 0 Int16.toInt32

theorem computeHashCode_eq_of_equals {e o : Entity} (h : e.equals o = true) :
    e.computeHashCode = o.computeHashCode := by
  unfold equals at h
  simp only [Bool.and_eq_true, decide_eq_true_eq] at h
  obtain ⟨⟨⟨⟨hip, hmac⟩, hdpid⟩, hport⟩, hvlan⟩ := h
  unfold computeHashCode
  rw [hip, hmac, hdpid, hport, hvlan]

end Entity

/-- An entity with the hash code that it keeps, 0 as long as it has not been asked for. -/
structure EntityObject where
  entity : Entity
  cached : Int32
  cached_eq : cached = 0 ∨ cached = entity.computeHashCode

namespace EntityObject

/-- A new object. -/
def new (e : Entity) : EntityObject := ⟨e, 0, .inl rfl⟩

/-- `hashCode`. -/
def hashCode (a : EntityObject) : Int32 × EntityObject :=
  if a.cached ≠ 0 then (a.cached, a)
  else (a.entity.computeHashCode, { a with cached := a.entity.computeHashCode, cached_eq := .inr rfl })

/-- `equals`, which compares the hash codes first. -/
def equals (a b : EntityObject) : Bool := a.hashCode.1 = b.hashCode.1 && a.entity.equals b.entity

/-- `compareTo`. -/
def compareTo (ports : PortOrder) (a b : EntityObject) : Ordering := a.entity.compareTo ports b.entity

/-- The hash code is always the computed one. -/
theorem hashCode_eq (a : EntityObject) : a.hashCode.1 = a.entity.computeHashCode := by
  unfold hashCode
  split_ifs with h
  · exact a.cached_eq.resolve_left h
  · rfl

/-- The comparison of the hash codes makes no difference. -/
theorem equals_eq (a b : EntityObject) : a.equals b = a.entity.equals b.entity := by
  unfold equals
  rw [hashCode_eq, hashCode_eq]
  cases h : a.entity.equals b.entity with
  | false => rw [Bool.and_false]
  | true => rw [Entity.computeHashCode_eq_of_equals h, decide_eq_true rfl, Bool.and_true]

/-- **The order of entities.** `compareTo` is a total order on entities with any fields absent, it is equal just
where `equals` is true, and then the hash codes are the same. -/
theorem totalOrder_compareTo (ports : PortOrder) (a b c : EntityObject) :
    a.compareTo ports b = (b.compareTo ports a).swap ∧
    (a.compareTo ports b ≠ .gt → b.compareTo ports c ≠ .gt → a.compareTo ports c ≠ .gt) ∧
    (a.compareTo ports b ≠ .gt ∨ b.compareTo ports a ≠ .gt) ∧
    (a.compareTo ports b = .eq ↔ a.equals b = true) ∧
    (a.equals b = true → a.hashCode.1 = b.hashCode.1) := by
  have hcmp := Entity.transCmp_compareTo ports
  have hswap : a.compareTo ports b = (b.compareTo ports a).swap := hcmp.eq_swap
  refine ⟨hswap, fun hab hbc => ?_, ?_, ?_, fun h => ?_⟩
  · have hac := hcmp.isLE_trans (Ordering.isLE_iff_ne_gt.2 hab) (Ordering.isLE_iff_ne_gt.2 hbc)
    exact Ordering.isLE_iff_ne_gt.1 hac
  · rw [hswap]
    cases b.compareTo ports a <;> simp
  · rw [equals_eq]
    exact Entity.compareTo_eq_eq
  · rw [equals_eq] at h
    rw [hashCode_eq, hashCode_eq, Entity.computeHashCode_eq_of_equals h]

end EntityObject

end Torpedo
