import Torpedo.Firewall.Rule
import Mathlib.Data.Set.Defs

/-!
# Rules that are the same

`isSameAs` finds out whether a rule is there already. What it should find out is `FirewallRule.SameFields`, the
same action and the same fields. It asks for types that differ, so that only rules for every type are the same
as themselves (`FirewallRule.isSameAs_self`), and does not look at priorities.
-/

namespace Torpedo

namespace FirewallRule

/-- `isSameAs`. -/
def isSameAs (rule r : FirewallRule) : Bool :=
  if rule.action ≠ r.action
      ∨ rule.wildcardDlType ≠ r.wildcardDlType
      ∨ (rule.wildcardDlType = false ∧ rule.dlType = r.dlType)
      ∨ rule.wildcardTpSrc ≠ r.wildcardTpSrc
      ∨ (rule.wildcardTpSrc = false ∧ rule.tpSrc ≠ r.tpSrc)
      ∨ rule.wildcardTpDst ≠ r.wildcardTpDst
      ∨ (rule.wildcardTpDst = false ∧ rule.tpDst ≠ r.tpDst)
      ∨ rule.wildcardDpid ≠ r.wildcardDpid
      ∨ (rule.wildcardDpid = false ∧ rule.dpid ≠ r.dpid)
      ∨ rule.wildcardInPort ≠ r.wildcardInPort
      ∨ (rule.wildcardInPort = false ∧ rule.inPort ≠ r.inPort)
      ∨ rule.wildcardNwSrc ≠ r.wildcardNwSrc
      ∨ (rule.wildcardNwSrc = false ∧ (rule.nwSrcPrefix ≠ r.nwSrcPrefix ∨ rule.nwSrcMaskbits ≠ r.nwSrcMaskbits))
      ∨ rule.wildcardDlSrc ≠ r.wildcardDlSrc
      ∨ (rule.wildcardDlSrc = false ∧ rule.dlSrc ≠ r.dlSrc)
      ∨ rule.wildcardNwProto ≠ r.wildcardNwProto
      ∨ (rule.wildcardNwProto = false ∧ rule.nwProto ≠ r.nwProto)
      ∨ rule.wildcardNwDst ≠ r.wildcardNwDst
      ∨ (rule.wildcardNwDst = false ∧ (rule.nwDstPrefix ≠ r.nwDstPrefix ∨ rule.nwDstMaskbits ≠ r.nwDstMaskbits))
      ∨ rule.wildcardDlDst ≠ r.wildcardDlDst
      ∨ (rule.wildcardDlDst = false ∧ rule.dlDst ≠ r.dlDst) then false
  else true

/-! ## The same fields -/

/-- Both fields are wildcards, or none of them is and they have one value. -/
def SameField {α : Type} (wildcard wildcard' : Bool) (value value' : α) : Prop :=
  wildcard = wildcard' ∧ (wildcard = false → value = value')

namespace SameField

variable {α : Type} {wildcard wildcard' wildcard'' : Bool} {value value' value'' : α}

theorem refl (wildcard : Bool) (value : α) : SameField wildcard wildcard value value := ⟨rfl, fun _ => rfl⟩

theorem symm (h : SameField wildcard wildcard' value value') : SameField wildcard' wildcard value' value :=
  ⟨h.1.symm, fun hw => (h.2 (h.1.trans hw)).symm⟩

theorem trans (h : SameField wildcard wildcard' value value') (h' : SameField wildcard' wildcard'' value' value'') :
    SameField wildcard wildcard'' value value'' :=
  ⟨h.1.trans h'.1, fun hw => (h.2 hw).trans (h'.2 (h.1.symm.trans hw))⟩

/-- Something that is asked of a value unless the field is a wildcard. -/
theorem iff (h : SameField wildcard wildcard' value value') (P : α → Prop) :
    wildcard = false ∧ P value ↔ wildcard' = false ∧ P value' := by
  obtain ⟨rfl, hvalue⟩ := h
  exact and_congr_right fun hw => by rw [hvalue hw]

end SameField

/-- The rules have one action, and each field of theirs is the same. -/
structure SameFields (rule r : FirewallRule) : Prop where
  action : rule.action = r.action
  dlType : SameField rule.wildcardDlType r.wildcardDlType rule.dlType r.dlType
  tpSrc : SameField rule.wildcardTpSrc r.wildcardTpSrc rule.tpSrc r.tpSrc
  tpDst : SameField rule.wildcardTpDst r.wildcardTpDst rule.tpDst r.tpDst
  dpid : SameField rule.wildcardDpid r.wildcardDpid rule.dpid r.dpid
  inPort : SameField rule.wildcardInPort r.wildcardInPort rule.inPort r.inPort
  nwSrc : SameField rule.wildcardNwSrc r.wildcardNwSrc (rule.nwSrcPrefix, rule.nwSrcMaskbits)
    (r.nwSrcPrefix, r.nwSrcMaskbits)
  dlSrc : SameField rule.wildcardDlSrc r.wildcardDlSrc rule.dlSrc r.dlSrc
  nwProto : SameField rule.wildcardNwProto r.wildcardNwProto rule.nwProto r.nwProto
  nwDst : SameField rule.wildcardNwDst r.wildcardNwDst (rule.nwDstPrefix, rule.nwDstMaskbits)
    (r.nwDstPrefix, r.nwDstMaskbits)
  dlDst : SameField rule.wildcardDlDst r.wildcardDlDst rule.dlDst r.dlDst

variable {rule r r' : FirewallRule}

namespace SameFields

theorem refl (r : FirewallRule) : r.SameFields r :=
  ⟨rfl, .refl .., .refl .., .refl .., .refl .., .refl .., .refl .., .refl .., .refl .., .refl .., .refl ..⟩

theorem symm (h : rule.SameFields r) : r.SameFields rule :=
  ⟨h.action.symm, h.dlType.symm, h.tpSrc.symm, h.tpDst.symm, h.dpid.symm, h.inPort.symm, h.nwSrc.symm,
    h.dlSrc.symm, h.nwProto.symm, h.nwDst.symm, h.dlDst.symm⟩

theorem trans (h : rule.SameFields r) (h' : r.SameFields r') : rule.SameFields r' :=
  ⟨h.action.trans h'.action, h.dlType.trans h'.dlType, h.tpSrc.trans h'.tpSrc, h.tpDst.trans h'.tpDst,
    h.dpid.trans h'.dpid, h.inPort.trans h'.inPort, h.nwSrc.trans h'.nwSrc, h.dlSrc.trans h'.dlSrc,
    h.nwProto.trans h'.nwProto, h.nwDst.trans h'.nwDst, h.dlDst.trans h'.dlDst⟩

end SameFields

/-- For a rule for every type, the fields are compared. -/
theorem isSameAs_iff (h : rule.wildcardDlType = true) : rule.isSameAs r = true ↔ rule.SameFields r := by
  have hno : ∀ {P : Prop}, rule.wildcardDlType = false → P := fun hfalse => nomatch h.symm.trans hfalse
  have hpair : ∀ {a b a' b' : Int32}, (a ≠ a' ∨ b ≠ b') ↔ (a, b) ≠ (a', b') := by
    intro a b a' b'
    rw [Ne.eq_def (a, b), Prod.mk.injEq, not_and_or]
  have hite : ∀ {p : Prop} [Decidable p], (if p then false else true) = true ↔ ¬p := by
    intro p _
    split_ifs with hp <;> simp [hp]
  unfold isSameAs
  rw [hite]
  simp only [hpair, not_or, ne_eq, not_and, not_not]
  constructor
  · rintro ⟨haction, htype, -, htpSrc, htpSrc', htpDst, htpDst', hdpid, hdpid', hinPort, hinPort', hnwSrc, hnwSrc',
      hdlSrc, hdlSrc', hnwProto, hnwProto', hnwDst, hnwDst', hdlDst, hdlDst'⟩
    exact ⟨haction, ⟨htype, hno⟩, ⟨htpSrc, htpSrc'⟩, ⟨htpDst, htpDst'⟩,
      ⟨hdpid, hdpid'⟩, ⟨hinPort, hinPort'⟩, ⟨hnwSrc, hnwSrc'⟩, ⟨hdlSrc, hdlSrc'⟩, ⟨hnwProto, hnwProto'⟩,
      ⟨hnwDst, hnwDst'⟩, ⟨hdlDst, hdlDst'⟩⟩
  · intro hsame
    exact ⟨hsame.action, hsame.dlType.1, hno, hsame.tpSrc.1, hsame.tpSrc.2,
      hsame.tpDst.1, hsame.tpDst.2, hsame.dpid.1, hsame.dpid.2, hsame.inPort.1, hsame.inPort.2, hsame.nwSrc.1,
      hsame.nwSrc.2, hsame.dlSrc.1, hsame.dlSrc.2, hsame.nwProto.1, hsame.nwProto.2, hsame.nwDst.1, hsame.nwDst.2,
      hsame.dlDst.1, hsame.dlDst.2⟩

/-- The test of the type asks for types that differ. -/
theorem isSameAs_self : r.isSameAs r = r.wildcardDlType := by
  unfold isSameAs
  simp

/-! ## Packets that match -/

theorem update_congr (h : rule.action = r.action) : rule.update = r.update := by
  funext f
  unfold update
  rw [h]

theorem clear_congr (h : rule.action = r.action) : rule.clear = r.clear := by
  funext bits
  unfold clear
  rw [update_congr h]

theorem matchesInPort_congr (h : SameField rule.wildcardInPort r.wildcardInPort rule.inPort r.inPort) :
    rule.matchesInPort = r.matchesInPort := by
  funext inPort
  obtain ⟨hw, hvalue⟩ := h
  unfold matchesInPort
  rw [← hw]
  cases hcase : rule.wildcardInPort with
  | false => rw [hvalue hcase]
  | true => rfl

theorem matchesType_of_wildcard (h : r.wildcardDlType = true) (packet : Ethernet) :
    r.matchesType packet = return true := if_pos h

/-- Two rules for every type with the same fields treat every packet alike. -/
theorem SameFields.matchesFlow (h : rule.SameFields r) (htype : rule.wildcardDlType = true) :
    rule.matchesFlow = r.matchesFlow := by
  have htype' : r.wildcardDlType = true := h.dlType.1.symm.trans htype
  funext switchDpid inPort packet
  unfold FirewallRule.matchesFlow
  simp only [matchesType_of_wildcard htype, matchesType_of_wildcard htype', clear_congr h.action,
    matchesInPort_congr h.inPort, h.dpid.iff (· ≠ switchDpid), h.dlSrc.iff (· ≠ packet.sourceMACAddress.toLong),
    h.dlDst.iff (· ≠ packet.destinationMACAddress.toLong)]

/-! ## Sets of rules -/

/-- The answers of the rules to every packet. -/
def SameAnswers (rule r : FirewallRule) : Prop :=
  ∀ switchDpid inPort packet wildcards, (rule.matchesFlow switchDpid inPort packet wildcards).map Prod.fst =
    (r.matchesFlow switchDpid inPort packet wildcards).map Prod.fst

/-- Among the rules of a set, `isSameAs` is an equivalence relation, and rules it takes for the same match the
same packets, with the same action and priority. -/
structure Recognizes (rules : Set FirewallRule) : Prop where
  refl : ∀ a ∈ rules, a.isSameAs a
  symm : ∀ a ∈ rules, ∀ b ∈ rules, a.isSameAs b → b.isSameAs a
  trans : ∀ a ∈ rules, ∀ b ∈ rules, ∀ c ∈ rules, a.isSameAs b → b.isSameAs c → a.isSameAs c
  answers : ∀ a ∈ rules, ∀ b ∈ rules, a.isSameAs b → a.SameAnswers b
  action : ∀ a ∈ rules, ∀ b ∈ rules, a.isSameAs b → a.action = b.action
  priority : ∀ a ∈ rules, ∀ b ∈ rules, a.isSameAs b → a.priority = b.priority

/-- The rules are recognized if and only if all of them are for every type, and those with the same fields
have one priority. -/
theorem recognizes_iff (rules : Set FirewallRule) :
    Recognizes rules ↔ (∀ a ∈ rules, a.wildcardDlType = true) ∧
      ∀ a ∈ rules, ∀ b ∈ rules, a.SameFields b → a.priority = b.priority := by
  constructor
  · intro h
    have htype : ∀ a ∈ rules, a.wildcardDlType = true := fun a ha => isSameAs_self ▸ h.refl a ha
    exact ⟨htype, fun a ha b hb hab => h.priority a ha b hb ((isSameAs_iff (htype a ha)).2 hab)⟩
  · rintro ⟨htype, hpriority⟩
    have hsame : ∀ a ∈ rules, ∀ b, a.isSameAs b = true ↔ a.SameFields b := fun a ha _ => isSameAs_iff (htype a ha)
    exact {
      refl := fun a ha => (hsame a ha a).2 (.refl a)
      symm := fun a ha b hb hab => (hsame b hb a).2 ((hsame a ha b).1 hab).symm
      trans := fun a ha b hb c _ hab hbc => (hsame a ha c).2 (((hsame a ha b).1 hab).trans ((hsame b hb c).1 hbc))
      answers := fun a ha b _ hab switchDpid inPort packet wildcards => by
        rw [((hsame a ha b).1 hab).matchesFlow (htype a ha)]
      action := fun a ha b _ hab => ((hsame a ha b).1 hab).action
      priority := fun a ha b hb hab => hpriority a ha b hb ((hsame a ha b).1 hab) }

/-- A rule for ARP is not the same as itself. -/
theorem not_recognizes : ¬Recognizes Set.univ := fun h =>
  absurd (h.refl { wildcardDlType := false, dlType := Ethernet.typeArp } trivial) (by decide)

end FirewallRule

end Torpedo
