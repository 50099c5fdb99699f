import Mathlib.Combinatorics.SimpleGraph.Acyclic

/-!
# Trees given by parents, and floods

A graph that joins each node but the root to its parent is a tree, if parents are lower. A flood
sends a message on to every neighbour but the one it came from; in a tree it reaches every node
exactly once.
-/

namespace Torpedo

namespace Tree

variable {V : Type} {G : SimpleGraph V}

/-! ## Parents -/

section Parents

/-- The edges of `G` join the nodes other than the root to their parents, which are lower. -/
structure Parents (G : SimpleGraph V) (root : V) (parent : V → V) (height : V → ℕ) : Prop where
  lower : ∀ v, v ≠ root → height (parent v) < height v
  adj_iff : ∀ u v, G.Adj u v ↔ u ≠ root ∧ parent u = v ∨ v ≠ root ∧ parent v = u

variable {root : V} {parent : V → V} {height : V → ℕ}

theorem Parents.adj (h : Parents G root parent height) {v : V} (hv : v ≠ root) :
    G.Adj v (parent v) := (h.adj_iff v _).2 (.inl ⟨hv, rfl⟩)

theorem Parents.reachable (h : Parents G root parent height) (n : ℕ) :
    ∀ v, height v ≤ n → G.Reachable v root := by
  induction n with
  | zero =>
    intro v hv
    by_cases hroot : v = root
    · exact hroot ▸ .refl v
    · have := h.lower v hroot
      omega
  | succ n ih =>
    intro v hv
    by_cases hroot : v = root
    · exact hroot ▸ .refl v
    · have := h.lower v hroot
      exact (h.adj hroot).reachable.trans (ih _ (by omega))

/-- The edges are as many as the nodes other than the root. -/
theorem Parents.card_edgeSet (h : Parents G root parent height) [Finite V] :
    Nat.card G.edgeSet + 1 = Nat.card V := by
  have hbij : Function.Bijective fun v : {v : V // v ≠ root} =>
      (⟨s(v.1, parent v.1), (h.adj v.2)⟩ : G.edgeSet) := by
    constructor
    · rintro ⟨v, hv⟩ ⟨w, hw⟩ he
      rcases Sym2.eq_iff.1 (Subtype.mk.inj he) with ⟨rfl, -⟩ | ⟨hvw, hwv⟩
      · rfl
      · -- neither of two nodes is below the other
        have h₁ := h.lower v hv
        have h₂ := h.lower w hw
        dsimp only at hvw hwv
        rw [hwv] at h₁
        rw [← hvw] at h₂
        omega
    · rintro ⟨e, he⟩
      induction e using Sym2.ind with
      | _ u v =>
        rcases (h.adj_iff u v).1 he with ⟨hu, rfl⟩ | ⟨hv, rfl⟩
        · exact ⟨⟨u, hu⟩, rfl⟩
        · exact ⟨⟨v, hv⟩, Subtype.ext Sym2.eq_swap⟩
  have hcard := Nat.card_congr (Equiv.ofBijective _ hbij)
  have := Fintype.ofFinite V
  classical
  rw [← hcard, Nat.card_eq_fintype_card, Nat.card_eq_fintype_card, Fintype.card_subtype_compl,
    Fintype.card_subtype_eq]
  have hpos : 0 < Fintype.card V := Fintype.card_pos_iff.2 ⟨root⟩
  omega

theorem Parents.isTree (h : Parents G root parent height) [Finite V] : G.IsTree := by
  rw [SimpleGraph.isTree_iff_connected_and_card]
  have hreach : ∀ v, G.Reachable v root := fun v => h.reachable _ v le_rfl
  have : Nonempty V := ⟨root⟩
  exact ⟨⟨fun u v => (hreach u).trans (hreach v).symm⟩, h.card_edgeSet⟩

end Parents

/-! ## Floods -/

/-- A flood from `s` comes to a node by way of the nodes of a list, the last one first. No node
sends it back to where it came from. -/
inductive Flood (G : SimpleGraph V) (s : V) : V → List V → Prop
  | start : Flood G s s []
  | forward {v w : V} {vs : List V} :
    Flood G s v vs → G.Adj v w → vs.head? ≠ some w → Flood G s w (v :: vs)

/-- In a tree the ways of a flood are paths. -/
theorem Flood.exists_path (hG : G.IsAcyclic) {s v : V} {vs : List V} (h : Flood G s v vs) :
    ∃ p : G.Walk v s, p.IsPath ∧ p.support = v :: vs := by
  induction h with
  | start => exact ⟨.nil, by simp, rfl⟩
  | @forward v w vs _ hadj hne ih =>
    obtain ⟨p, hp, hs⟩ := ih
    refine ⟨.cons hadj.symm p, ?_, by rw [SimpleGraph.Walk.support_cons, hs]⟩
    rw [hG.isPath_iff_isChain] at hp ⊢
    rw [SimpleGraph.Walk.edges_cons]
    cases p with
    | nil => simp
    | @cons _ u _ hadj' p =>
      rw [SimpleGraph.Walk.edges_cons] at hp ⊢
      refine List.isChain_cons_cons.2 ⟨fun he => ?_, hp⟩
      -- the next edge leads to the node the flood came from
      have hu : vs.head? = some u := by
        rw [SimpleGraph.Walk.support_cons, List.cons.injEq] at hs
        rw [← hs.2]
        cases p <;> rfl
      rcases Sym2.eq_iff.1 he with ⟨rfl, -⟩ | ⟨rfl, -⟩
      · exact hadj.ne rfl
      · exact hne hu

/-- A flood comes along every path. -/
theorem flood_of_path {s v : V} (p : G.Walk v s) : p.IsPath → ∃ vs, Flood G s v vs ∧
    p.support = v :: vs := by
  induction p with
  | nil => exact fun _ => ⟨[], .start, rfl⟩
  | @cons w v s hadj p ih =>
    intro hp
    rw [SimpleGraph.Walk.cons_isPath_iff] at hp
    obtain ⟨vs, hvs, hs⟩ := ih hp.1
    refine ⟨v :: vs, .forward hvs hadj.symm fun hw => hp.2 ?_, by
      rw [SimpleGraph.Walk.support_cons, hs]⟩
    rw [hs]
    exact List.mem_cons_of_mem v (List.mem_of_mem_head? hw)

/-- **In a tree a flood comes to every node exactly once.** -/
theorem existsUnique_flood (hG : G.IsTree) (s v : V) : ∃! vs, Flood G s v vs := by
  obtain ⟨p, hp, -⟩ := hG.existsUnique_path v s
  obtain ⟨vs, hvs, -⟩ := flood_of_path p hp
  refine ⟨vs, hvs, fun vs' hvs' => ?_⟩
  obtain ⟨q, hq, hs⟩ := hvs.exists_path hG.isAcyclic
  obtain ⟨q', hq', hs'⟩ := hvs'.exists_path hG.isAcyclic
  obtain rfl : q = q' := (hG.existsUnique_path v s).unique hq hq'
  exact (List.cons.inj (hs'.symm.trans hs)).2

end Tree

end Torpedo
