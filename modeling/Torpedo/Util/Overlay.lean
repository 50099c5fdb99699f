import Mathlib.Data.List.Basic
import Mathlib.Logic.Function.Basic

/-!
# Overlays

The nodes of an overlay have ports that lead to other nodes by their names. In a full mesh each node has a
port to each other one, and no port to a node that is not there. A node that comes is connected with the
others one by one; the ports to a node that goes are taken away one by one.
-/

namespace Torpedo

/-- The nodes that are there, and the ports that each node has, by the names of where they lead. -/
@[ext]
structure Overlay (κ ι ν : Type) where
  node : κ → Option ι
  port : κ → ν → Prop

namespace Overlay

variable {κ ι ν : Type} (name : ι → Option ν) (o : Overlay κ ι ν) {a b : κ} {x y : ι} {n m : ν} {done : List κ}

/-- Every two nodes have a port to each other, and all ports of the nodes lead to nodes. -/
structure FullMesh : Prop where
  mesh : ∀ a b x y, o.node a = some x → o.node b = some y → a ≠ b → ∃ n, name y = some n ∧ o.port a n
  clean : ∀ a x n, o.node a = some x → o.port a n → ∃ b y, o.node b = some y ∧ name y = some n

def register [DecidableEq κ] (a : κ) (x : ι) : Overlay κ ι ν :=
  { o with node := Function.update o.node a (some x) }

def unregister [DecidableEq κ] (a : κ) : Overlay κ ι ν := { o with node := Function.update o.node a none }

def addPort (a : κ) (n : ν) : Overlay κ ι ν := { o with port := fun b m => o.port b m ∨ b = a ∧ m = n }

def delPort (a : κ) (n : ν) : Overlay κ ι ν := { o with port := fun b m => o.port b m ∧ ¬(b = a ∧ m = n) }

/-- A node is connected with some nodes, in both directions. -/
def meet (a : κ) (x : ι) (done : List κ) : Overlay κ ι ν :=
  { o with port := fun c n => o.port c n ∨ (c = a ∧ ∃ b ∈ done, b ≠ a ∧ ∃ y, o.node b = some y ∧ name y = some n) ∨
      (c ∈ done ∧ c ≠ a ∧ name x = some n) }

/-- Some nodes lose their ports to a name. -/
def part (n : ν) (done : List κ) : Overlay κ ι ν :=
  { o with port := fun c m => o.port c m ∧ ¬(m = n ∧ c ∈ done) }

variable {name o}

theorem register_of_node [DecidableEq κ] (h : o.node a = some x) : o.register a x = o := by
  refine Overlay.ext ?_ rfl
  funext b
  show Function.update o.node a (some x) b = o.node b
  rw [Function.update_apply]
  split_ifs with hba
  · rw [hba, h]
  · rfl

/-- A node is registered anew, under the same name. -/
theorem FullMesh.renew [DecidableEq κ] (h : o.FullMesh name) (ha : o.node a = some x) (hname : name y = name x) :
    (o.register a y).FullMesh name := by
  have hnode : ∀ {b z}, (o.register a y).node b = some z → ∃ z', o.node b = some z' ∧ name z = name z' := by
    intro b z hb
    change Function.update o.node a (some y) b = some z at hb
    rw [Function.update_apply] at hb
    split_ifs at hb with hba
    · obtain rfl := Option.some.inj hb
      exact ⟨x, hba ▸ ha, hname⟩
    · exact ⟨z, hb, rfl⟩
  constructor
  · intro b c z w hb hc hne
    obtain ⟨z', hb', -⟩ := hnode hb
    obtain ⟨w', hc', hw⟩ := hnode hc
    rw [hw]
    exact h.mesh b c z' w' hb' hc' hne
  · intro b z n hb hport
    obtain ⟨z', hb', -⟩ := hnode hb
    obtain ⟨c, w, hc, hw⟩ := h.clean b z' n hb' hport
    by_cases hca : c = a
    · obtain rfl := Option.some.inj (ha.symm.trans (hca ▸ hc))
      exact ⟨a, y, Function.update_self .., hname.trans hw⟩
    · exact ⟨c, w, (Function.update_of_ne hca ..).trans hc, hw⟩

/-! ## A node comes -/

theorem addPort_of_port (h : o.port a n) : o.addPort a n = o := by
  ext b m
  · rfl
  · show o.port b m ∨ b = a ∧ m = n ↔ o.port b m
    refine ⟨fun hport => ?_, .inl⟩
    obtain hport | ⟨rfl, rfl⟩ := hport
    · exact hport
    · exact h

@[simp] theorem meet_nil : o.meet name a x [] = o := by
  ext c n
  · rfl
  · show o.port c n ∨ (c = a ∧ ∃ b ∈ [], _) ∨ (c ∈ [] ∧ _) ↔ o.port c n
    simp

theorem meet_self : o.meet name a x (done ++ [a]) = o.meet name a x done := by
  ext c n
  · rfl
  · unfold meet
    simp only [List.mem_append, List.mem_singleton]
    constructor
    · rintro (hport | ⟨rfl, b, hb | rfl, hne, hy⟩ | ⟨hc | rfl, hne, hn⟩)
      · exact .inl hport
      · exact .inr (.inl ⟨rfl, b, hb, hne, hy⟩)
      · exact absurd rfl hne
      · exact .inr (.inr ⟨hc, hne, hn⟩)
      · exact absurd rfl hne
    · rintro (hport | ⟨rfl, b, hb, hne, hy⟩ | ⟨hc, hne, hn⟩)
      · exact .inl hport
      · exact .inr (.inl ⟨rfl, b, .inl hb, hne, hy⟩)
      · exact .inr (.inr ⟨.inl hc, hne, hn⟩)

/-- One node more is connected. -/
theorem meet_append (hb : o.node b = some y) (hne : b ≠ a) (hy : name y = some n) (hx : name x = some m) :
    ((o.meet name a x done).addPort a n).addPort b m = o.meet name a x (done ++ [b]) := by
  ext c l
  · rfl
  · unfold meet addPort
    simp only [List.mem_append, List.mem_singleton]
    constructor
    · rintro (((hport | ⟨rfl, b', hb', hne', hy'⟩ | ⟨hc, hne', hl⟩) | ⟨rfl, rfl⟩) | ⟨rfl, rfl⟩)
      · exact .inl hport
      · exact .inr (.inl ⟨rfl, b', .inl hb', hne', hy'⟩)
      · exact .inr (.inr ⟨.inl hc, hne', hl⟩)
      · exact .inr (.inl ⟨rfl, b, .inr rfl, hne, y, hb, hy⟩)
      · exact .inr (.inr ⟨.inr rfl, hne, hx⟩)
    · rintro (hport | ⟨rfl, b', hb' | rfl, hne', y', hy', hl⟩ | ⟨hc | rfl, hne', hl⟩)
      · exact .inl (.inl (.inl hport))
      · exact .inl (.inl (.inr (.inl ⟨rfl, b', hb', hne', y', hy', hl⟩)))
      · obtain rfl := Option.some.inj (hb.symm.trans hy')
        exact .inl (.inr ⟨rfl, Option.some.inj (hl.symm.trans hy)⟩)
      · exact .inl (.inl (.inr (.inr ⟨hc, hne', hl⟩)))
      · exact .inr ⟨rfl, Option.some.inj (hl.symm.trans hx)⟩

/-- A node that is connected with all others joins the mesh, if its old ports lead to nodes. -/
theorem FullMesh.join [DecidableEq κ] (h : o.FullMesh name) (ha : o.node a = none)
    (hold : ∀ n, o.port a n → ∃ b y, (o.register a x).node b = some y ∧ name y = some n)
    (hall : ∀ b y, o.node b = some y → b ∈ done ∧ (∃ n, name y = some n) ∧ ∃ n, name x = some n) :
    ((o.register a x).meet name a x done).FullMesh name := by
  have hself : (o.register a x).node a = some x := Function.update_self ..
  have hother : ∀ {b}, b ≠ a → (o.register a x).node b = o.node b := fun hne => Function.update_of_ne hne ..
  have hne_of : ∀ {b y}, o.node b = some y → b ≠ a := by
    rintro b y hb rfl
    rw [ha] at hb
    cases hb
  constructor
  · intro b c y z hb hc hne
    change (o.register a x).node b = some y at hb
    change (o.register a x).node c = some z at hc
    by_cases hba : b = a
    · subst hba
      rw [hother hne.symm] at hc
      obtain ⟨hdone, ⟨n, hn⟩, -⟩ := hall c z hc
      exact ⟨n, hn, .inr (.inl ⟨rfl, c, hdone, hne.symm, z, (hother hne.symm).trans hc, hn⟩)⟩
    · rw [hother hba] at hb
      by_cases hca : c = a
      · subst hca
        obtain rfl := Option.some.inj (hself.symm.trans hc)
        obtain ⟨hdone, -, n, hn⟩ := hall b y hb
        exact ⟨n, hn, .inr (.inr ⟨hdone, hba, hn⟩)⟩
      · rw [hother hca] at hc
        obtain ⟨n, hn, hport⟩ := h.mesh b c y z hb hc hne
        exact ⟨n, hn, .inl hport⟩
  · intro b y n hb hport
    change (o.register a x).node b = some y at hb
    show ∃ c z, (o.register a x).node c = some z ∧ name z = some n
    obtain hport | ⟨rfl, c, -, hne, z, hc, hn⟩ | ⟨-, hne, hn⟩ := hport
    · by_cases hba : b = a
      · subst hba
        exact hold n hport
      · rw [hother hba] at hb
        obtain ⟨c, z, hc, hn⟩ := h.clean b y n hb hport
        exact ⟨c, z, (hother (hne_of hc)).trans hc, hn⟩
    · exact ⟨c, z, hc, hn⟩
    · exact ⟨a, x, hself, hn⟩

/-! ## A node goes -/

@[simp] theorem part_nil : o.part n [] = o := by
  ext c m
  · rfl
  · show o.port c m ∧ ¬(m = n ∧ c ∈ []) ↔ o.port c m
    simp

/-- One node more loses its port. -/
theorem part_append : (o.part n done).delPort b n = o.part n (done ++ [b]) := by
  ext c m
  · rfl
  · unfold part delPort
    simp only [List.mem_append, List.mem_singleton]
    grind

/-- If all nodes have lost their ports to a node that goes, and to no other, the others are a full mesh. -/
theorem FullMesh.leave [DecidableEq κ] (h : o.FullMesh name) (ha : o.node a = some x) (hx : name x = some n)
    (hall : ∀ b y, o.node b = some y → b ≠ a → b ∈ done ∧ name y ≠ some n) :
    ((o.unregister a).part n done).FullMesh name := by
  have hnode : ∀ {b y}, (o.unregister a).node b = some y → b ≠ a ∧ o.node b = some y := by
    intro b y hb
    change Function.update o.node a none b = some y at hb
    rw [Function.update_apply] at hb
    split_ifs at hb with hba
    exact ⟨hba, hb⟩
  constructor
  · intro b c y z hb hc hne
    obtain ⟨-, hb'⟩ := hnode hb
    obtain ⟨hca, hc'⟩ := hnode hc
    obtain ⟨m, hm, hport⟩ := h.mesh b c y z hb' hc' hne
    refine ⟨m, hm, hport, ?_⟩
    rintro ⟨rfl, -⟩
    exact (hall c z hc' hca).2 hm
  · rintro b y m hb ⟨hport, hkept⟩
    obtain ⟨hba, hb'⟩ := hnode hb
    have hmn : m ≠ n := fun heq => hkept ⟨heq, (hall b y hb' hba).1⟩
    obtain ⟨c, z, hc, hm⟩ := h.clean b y m hb' hport
    refine ⟨c, z, (Function.update_of_ne ?_ ..).trans hc, hm⟩
    rintro rfl
    obtain rfl := Option.some.inj (ha.symm.trans hc)
    exact hmn (Option.some.inj (hm.symm.trans hx))

end Overlay

end Torpedo
