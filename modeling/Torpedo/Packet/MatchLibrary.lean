import Mathlib.Logic.Function.Basic
import Torpedo.LinkDiscovery.Link
import Torpedo.Util.Decoder

/-!
# The library of matches

What a match is to the modules that copy one field by field: fields, with a value and perhaps a mask. The library
lists the fields of a match, tells which of them are exact, and builds a match of the fields that were set. A
field whose prerequisites are not met may be stored and not be listed.
-/

namespace Torpedo

/-- A value, and its mask if it has one. -/
structure Oxm (ν : Type) where
  value : ν
  mask : Option ν
deriving DecidableEq, Repr

/-- `Match`: what is stored for each field. The order of the fields is left out. -/
abbrev OfMatch (φ ν : Type) := φ → Option (Oxm ν)

/-- The factory of one version of OpenFlow, as far as it has to do with matches. -/
structure MatchLibrary (φ ν : Type) [DecidableEq φ] where
  inPort : φ
  ethType : φ
  ofPort : OFPort → ν
  /-- `EthType.ARP`. -/
  arp : ν
  getMatchFields : OfMatch φ ν → Except Stop (List φ)
  isExact : OfMatch φ ν → φ → Bool
  /-- The match of the fields that have been set in a builder. -/
  build : OfMatch φ ν → OfMatch φ ν
  /-- An exact field has a value and no mask. -/
  isExact_spec : ∀ m f, isExact m f → ∃ value, m f = some ⟨value, none⟩
  /-- A builder leaves out fields, and changes none. -/
  build_spec : ∀ m f, build m f = m f ∨ build m f = none
  /-- Which fields are left out has nothing to do with the port. -/
  build_update : ∀ m port, build (Function.update m inPort port) = Function.update (build m) inPort port

namespace MatchLibrary

variable {φ ν : Type} [DecidableEq φ] (lib : MatchLibrary φ ν)

def get (m : OfMatch φ ν) (f : φ) : Option ν := (m f).map Oxm.value

def setExact (f : φ) (value : ν) (builder : OfMatch φ ν) : OfMatch φ ν :=
  Function.update builder f (some ⟨value, none⟩)

/-- `match.get(MatchField.ETH_TYPE) == EthType.ARP`. -/
def IsArp (m : OfMatch φ ν) : Prop := get m lib.ethType = some lib.arp

instance [DecidableEq ν] (m : OfMatch φ ν) : Decidable (lib.IsArp m) :=
  inferInstanceAs (Decidable (get m lib.ethType = some lib.arp))

/-- A field that is not exact goes to `setMasked`, with a `Masked` for the mask: that is a value, too, but never
one of the field. -/
def copyField (m builder : OfMatch φ ν) (f : φ) : Except Stop (OfMatch φ ν) :=
  if lib.isExact m f then
    match get m f with
    | some value => .ok (setExact f value builder)
    | none => .error .exception
  else .error .exception

/-- The loop that copies a match into a new builder. -/
def copy (m : OfMatch φ ν) : Except Stop (OfMatch φ ν) := do
  let fields ← lib.getMatchFields m
  fields.foldlM (lib.copyField m) fun _ => none

/-- All fields are listed, the port perhaps not, those that are listed are exact, and a builder keeps them. -/
def Copies (m : OfMatch φ ν) : Prop :=
  ∃ fields, lib.getMatchFields m = .ok fields ∧ (∀ f ∈ fields, lib.isExact m f) ∧
    (∀ f, f ≠ lib.inPort → m f ≠ none → f ∈ fields) ∧ lib.build m = m

variable {lib} {m b b' : OfMatch φ ν} {f : φ} {fields : List φ}

theorem copyField_eq_ok_iff :
    lib.copyField m b f = .ok b' ↔ lib.isExact m f ∧ b' = Function.update b f (m f) := by
  unfold copyField get
  split_ifs with hexact
  · obtain ⟨value, hf⟩ := lib.isExact_spec m f hexact
    rw [hf, and_iff_right hexact]
    constructor
    · rintro ⟨⟩
      rfl
    · rintro rfl
      rfl
  · exact iff_of_false nofun fun h => hexact h.1

theorem foldlM_copyField_eq_ok_iff : fields.foldlM (lib.copyField m) b = .ok b' ↔
    (∀ f ∈ fields, lib.isExact m f) ∧ b' = fun f => if f ∈ fields then m f else b f := by
  induction fields generalizing b with
  | nil =>
    have hnone : (fun f => if f ∈ [] then m f else b f) = b := by
      funext f
      exact if_neg List.not_mem_nil
    rw [hnone]
    constructor
    · rintro ⟨⟩
      exact ⟨fun f hf => absurd hf List.not_mem_nil, rfl⟩
    · rintro ⟨-, rfl⟩
      rfl
  | cons g fields ih =>
    rw [List.foldlM_cons, List.forall_mem_cons]
    have hfields : (fun f => if f ∈ fields then m f else Function.update b g (m g) f) =
        fun f => if f ∈ g :: fields then m f else b f := by
      funext f
      by_cases hf : f = g
      · simp [hf]
      · simp [hf]
    constructor
    · intro h
      obtain ⟨c, hc, h⟩ := of_bind_eq_ok h
      obtain ⟨hg, rfl⟩ := copyField_eq_ok_iff.1 hc
      obtain ⟨hexact, hb'⟩ := ih.1 h
      exact ⟨⟨hg, hexact⟩, hb'.trans hfields⟩
    · rintro ⟨⟨hg, hexact⟩, hb'⟩
      rw [copyField_eq_ok_iff.2 ⟨hg, rfl⟩]
      exact ih.2 ⟨hexact, hb'.trans hfields.symm⟩

theorem copy_eq_ok_iff : lib.copy m = .ok b ↔ ∃ fields, lib.getMatchFields m = .ok fields ∧
    (∀ f ∈ fields, lib.isExact m f) ∧ b = fun f => if f ∈ fields then m f else none := by
  constructor
  · intro h
    obtain ⟨fields, hfields, h⟩ := of_bind_eq_ok h
    exact ⟨fields, hfields, foldlM_copyField_eq_ok_iff.1 h⟩
  · rintro ⟨fields, hfields, h⟩
    unfold copy
    rw [hfields]
    exact foldlM_copyField_eq_ok_iff.2 h

/-- Whatever the port, the copy of a match with this port is the match with this port. -/
theorem Copies.copy (h : lib.Copies m) :
    ∃ b, lib.copy m = .ok b ∧ ∀ value, lib.build (setExact lib.inPort value b) = setExact lib.inPort value m := by
  obtain ⟨fields, hfields, hexact, hlisted, hbuild⟩ := h
  refine ⟨_, copy_eq_ok_iff.2 ⟨fields, hfields, hexact, rfl⟩, fun value => ?_⟩
  have hsame : setExact lib.inPort value (fun f => if f ∈ fields then m f else none) =
      setExact lib.inPort value m := by
    funext f
    unfold setExact
    by_cases hf : f = lib.inPort
    · rw [hf, Function.update_self, Function.update_self]
    · rw [Function.update_of_ne hf, Function.update_of_ne hf]
      split_ifs with hmem
      · rfl
      · exact (not_not.1 (mt (hlisted f hf) hmem)).symm
  rw [hsame]
  unfold setExact
  rw [lib.build_update, hbuild]

/-- If the copy of a match with a port is the match with some port, then the match copies. -/
theorem copies_of_build {value value' : ν} (h : lib.copy m = .ok b)
    (hbuild : lib.build (setExact lib.inPort value b) = setExact lib.inPort value' m) : lib.Copies m := by
  obtain ⟨fields, hfields, hexact, rfl⟩ := copy_eq_ok_iff.1 h
  set b : OfMatch φ ν := fun f => if f ∈ fields then m f else none with hb
  have hkept : ∀ f, f ≠ lib.inPort → lib.build b f = m f := by
    intro f hf
    have hat := congrFun hbuild f
    unfold setExact at hat
    rwa [lib.build_update, Function.update_of_ne hf, Function.update_of_ne hf] at hat
  have hstored : ∀ f, f ≠ lib.inPort → b f = m f := by
    intro f hf
    rcases lib.build_spec b f with hsame | hnone
    · exact hsame.symm.trans (hkept f hf)
    · have hmf : m f = none := (hkept f hf).symm.trans hnone
      rw [hb]
      exact (ite_congr rfl (fun _ => hmf) fun _ => rfl).trans ((ite_self none).trans hmf.symm)
  refine ⟨fields, hfields, hexact, fun f hf hmf => ?_, ?_⟩
  · by_contra hnot
    exact hmf ((hstored f hf).symm.trans (if_neg hnot))
  · have hm : m = Function.update b lib.inPort (m lib.inPort) := by
      funext f
      by_cases hf : f = lib.inPort
      · rw [hf, Function.update_self]
      · rw [Function.update_of_ne hf, hstored f hf]
    funext f
    rw [hm, lib.build_update]
    by_cases hf : f = lib.inPort
    · rw [hf, Function.update_self, Function.update_self]
    · rw [Function.update_of_ne hf, Function.update_of_ne hf, hkept f hf, hstored f hf]

end MatchLibrary

end Torpedo
