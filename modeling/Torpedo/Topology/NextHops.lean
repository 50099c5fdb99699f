import Torpedo.Topology.ShortestPathCosts

/-!
# Next hops

The next hops of a tree of `dijkstra` leave their own node and go down in cost, whatever the order
in which the nodes were entered, so following them is a walk to the root that meets no node twice.
-/

namespace Torpedo

/-- The next hops of a tree towards `root`. -/
structure NextHops (c : Cluster) (root : Dpid) (tree : BroadcastTree) : Prop where
  rootHop : tree.getTreeLink root = none
  hasLink : ∀ v l, tree.getTreeLink v = some l → c.HasLink l
  src : ∀ v l, tree.getTreeLink v = some l → l.src = v
  nonneg : ∀ v l, tree.getTreeLink v = some l → 0 ≤ tree.getCost l.dst
  descends : ∀ v l, tree.getTreeLink v = some l → tree.getCost l.dst < tree.getCost v
  goesOn : ∀ v l, tree.getTreeLink v = some l → l.dst = root ∨ (tree.getTreeLink l.dst).isSome

variable {ord : HashOrder} {queue : NodeQueue} {c : Cluster} {linkCost : Option (HashMap Link Int)}
  {root : Dpid} {st : DijkstraState} {L : List NodeDist} {O : List (Link × Int)}
  {tree : BroadcastTree}

/-! ## The tree of a run -/

theorem getTreeLink_eq_some {b : BroadcastTree} {v : Dpid} {l : Link} :
    b.getTreeLink v = some l ↔ b.links.get v = some (some l) := by
  unfold BroadcastTree.getTreeLink
  rw [Option.join_eq_some_iff]

/-- A next hop was set by an offer of an entered node. -/
theorem RunInv.hop_eq (h : RunInv c linkCost root st L O) {v : Dpid} {l : Link}
    (hl : st.nexthoplinks.get v = some (some l)) :
    v ≠ root ∧ c.HasLink l ∧ l.src = v ∧ ∃ n ∈ L, l.dst = n.node ∧
      st.cost.get v = some (n.dist + weight linkCost l) := by
  have hne : v ≠ root := by
    rintro rfl
    rw [h.rootHop] at hl
    cases hl
  obtain ⟨x, hx, -, -, hex⟩ := h.cost v (h.hopNode v l hl) hne
  rcases hex with ⟨-, hnone⟩ | ⟨n, hn, l', hl', hsrc, hdst, rfl, hhop⟩
  · rw [hl] at hnone
    cases hnone
  · obtain rfl : l = l' := Option.some.inj (Option.some.inj (hl.symm.trans hhop))
    exact ⟨hne, h.offered _ hl', hsrc, n, hn, hdst, hx⟩

/-- An entered node other than the root has a next hop. -/
theorem RunInv.isSome_hop (h : RunInv c linkCost root st L O) {n : NodeDist} (hn : n ∈ L)
    (hnode : n.node ∈ c.getNodes) (hne : n.node ≠ root) :
    ∃ l, st.nexthoplinks.get n.node = some (some l) := by
  obtain ⟨-, hlt, y, hy, hle⟩ := h.entered n hn
  obtain ⟨x, hx, -, -, hex⟩ := h.cost n.node hnode hne
  obtain rfl : x = y := Option.some.inj (hx.symm.trans hy)
  rcases hex with ⟨rfl, -⟩ | ⟨-, -, l, -, -, -, -, hhop⟩
  · omega
  · exact ⟨l, hhop⟩

theorem RunInv.nextHops (hw : c.CostsBounded linkCost) (h : RunInv c linkCost root st L O) :
    NextHops c root ⟨st.nexthoplinks, st.cost⟩ := by
  have hget : ∀ {v x}, st.cost.get v = some x →
      BroadcastTree.getCost ⟨st.nexthoplinks, st.cost⟩ v = x := by
    intro v x hx
    unfold BroadcastTree.getCost
    rw [hx]
  -- the offer that set the next hop, and the cost of the node that made it
  have hop : ∀ v l, BroadcastTree.getTreeLink ⟨st.nexthoplinks, st.cost⟩ v = some l →
      v ≠ root ∧ c.HasLink l ∧ l.src = v ∧ ∃ n ∈ L, l.dst = n.node ∧
        st.cost.get v = some (n.dist + weight linkCost l) :=
    fun v l hl => h.hop_eq (getTreeLink_eq_some.1 hl)
  constructor
  · unfold BroadcastTree.getTreeLink
    rw [h.rootHop]
    rfl
  · intro v l hl
    exact (hop v l hl).2.1
  · intro v l hl
    exact (hop v l hl).2.2.1
  · intro v l hl
    obtain ⟨-, hlink, -, n, hn, hdst, -⟩ := hop v l hl
    obtain ⟨-, -, y, hy, -⟩ := h.entered n hn
    rw [hdst, hget hy]
    by_cases hroot : n.node = root
    · rw [hroot, h.rootCost] at hy
      exact (Option.some.inj hy).le
    · obtain ⟨x, hx, -, -, hex⟩ := h.cost n.node (hdst ▸ Cluster.WellFormed.dst_mem hlink) hroot
      obtain rfl : x = y := Option.some.inj (hx.symm.trans hy)
      rcases hex with ⟨rfl, -⟩ | ⟨m, hm, l', hl', -, -, rfl, -⟩
      · decide
      · have hpos := (hw l' (h.offered _ hl')).1
        have hm₀ := (h.entered m hm).1
        omega
  · intro v l hl
    obtain ⟨-, hlink, -, n, hn, hdst, hcost⟩ := hop v l hl
    obtain ⟨-, -, y, hy, hle⟩ := h.entered n hn
    rw [hdst, hget hy, hget hcost]
    have hpos := (hw l hlink).1
    omega
  · intro v l hl
    obtain ⟨-, hlink, -, n, hn, hdst, -⟩ := hop v l hl
    by_cases hroot : l.dst = root
    · exact .inl hroot
    · obtain ⟨l', hl'⟩ := h.isSome_hop hn (hdst ▸ Cluster.WellFormed.dst_mem hlink) (hdst ▸ hroot)
      rw [← hdst] at hl'
      exact .inr (Option.isSome_iff_exists.2 ⟨l', getTreeLink_eq_some.2 hl'⟩)

/-- The tree of `dijkstra`. A node that reaches the root has a next hop as long as path sums stay
below the maximal path weight. -/
theorem dijkstra_nextHops (hc : c.WellFormed) (hw : c.CostsBounded linkCost)
    (hroot : root ∈ c.getNodes)
    (htree : TopologyInstance.dijkstra ord queue c linkCost true root = some tree) :
    NextHops c root tree ∧ (c.SumsBounded linkCost root →
      ∀ v, v ≠ root → c.graph.Reaches v root → (tree.getTreeLink v).isSome) := by
  obtain ⟨st, L, hst, hI, -, hq⟩ := dijkstra_run ord queue hc hw hroot (Q := fun _ => True) trivial
    fun _ _ _ _ _ _ _ => trivial
  obtain rfl := Option.some.inj (hst.symm.trans htree)
  refine ⟨hI.nextHops hw, fun hs v hne hv => ?_⟩
  have hp : Priced c linkCost root := ⟨hc, hroot, hw, hs⟩
  obtain ⟨n, hn, rfl⟩ := List.mem_map.1 (mem_of_reaches hc (fun v => hp.complete hI hq) hv)
  obtain ⟨es, hes⟩ := hv.exists_walk
  obtain ⟨l₀, -, hl₀, hsrc, -⟩ := hes.exists_edge hne
  have hnode : n.node ∈ c.getNodes := by
    rw [← hsrc]
    exact hc.src_mem hl₀
  obtain ⟨l, hl⟩ := hI.isSome_hop hn hnode hne
  exact Option.isSome_iff_exists.2 ⟨l, getTreeLink_eq_some.2 hl⟩

/-- Next hops are kept for nodes of the cluster only. -/
theorem relaxAll_hops {cdist : Int} (ls : List Link) (hls : ∀ l ∈ ls, l.src ∈ c.getNodes) :
    ∀ {st st' : DijkstraState}, DijkstraState.relaxAll linkCost true cdist ls st = some st' →
      (∀ v x, st.nexthoplinks.get v = some x → v ∈ c.getNodes) →
      ∀ v x, st'.nexthoplinks.get v = some x → v ∈ c.getNodes := by
  induction ls with
  | nil =>
    intro st st' h hst
    obtain rfl := Option.some.inj h
    exact hst
  | cons l ls ih =>
    intro st st' h hst
    unfold DijkstraState.relaxAll at h
    obtain ⟨st₁, hr, h⟩ := Option.bind_eq_some_iff.1 h
    refine ih (fun l' hl' => hls l' (List.mem_cons_of_mem l hl')) h ?_
    unfold DijkstraState.relax at hr
    dsimp only at hr
    rw [if_pos rfl] at hr
    obtain ⟨y, -, hr⟩ := Option.bind_eq_some_iff.1 hr
    split_ifs at hr
    · obtain rfl := Option.some.inj hr
      intro v x hx
      dsimp only at hx
      rw [HashMap.get_put] at hx
      split_ifs at hx with hv
      · rw [hv]
        exact hls l List.mem_cons_self
      · exact hst v x hx
    · obtain rfl := Option.some.inj hr
      exact hst

theorem dijkstraLoop_hops (hc : c.WellFormed) (fuel : ℕ) :
    ∀ {st st' : DijkstraState},
      TopologyInstance.dijkstraLoop ord queue c linkCost true fuel st = some st' →
      (∀ v x, st.nexthoplinks.get v = some x → v ∈ c.getNodes) →
      ∀ v x, st'.nexthoplinks.get v = some x → v ∈ c.getNodes := by
  induction fuel with
  | zero =>
    intro st st' h
    cases h
  | succ fuel ih =>
    intro st st' h hst
    unfold TopologyInstance.dijkstraLoop at h
    cases hp : queue.peek st.nodeq with
    | none =>
      rw [hp] at h
      obtain rfl := Option.some.inj h
      exact hst
    | some n =>
      rw [hp] at h
      dsimp only at h
      split_ifs at h
      · obtain rfl := Option.some.inj h
        exact hst
      · exact ih h hst
      · obtain ⟨links, hlinks, h⟩ := Option.bind_eq_some_iff.1 h
        obtain ⟨st₁, hr, h⟩ := Option.bind_eq_some_iff.1 h
        refine ih h (relaxAll_hops (ord.iter links) (fun l hl => ?_) hr hst)
        exact hc.src_mem (hc.has_iff.1 ⟨links, hlinks, (ord.mem_iter).1 hl⟩).1

theorem dijkstra_hops (hc : c.WellFormed)
    (htree : TopologyInstance.dijkstra ord queue c linkCost true root = some tree) {v : Dpid}
    {l : Link} (hl : tree.getTreeLink v = some l) : v ∈ c.getNodes := by
  unfold TopologyInstance.dijkstra at htree
  obtain ⟨st, hst, he⟩ := Option.bind_eq_some_iff.1 htree
  obtain rfl := Option.some.inj he
  refine dijkstraLoop_hops hc _ hst (fun v x hx => ?_) v _ (getTreeLink_eq_some.1 hl)
  change HashMap.get (List.foldl _ _ _) v = _ at hx
  rw [HashMap.get_foldl_put] at hx
  split_ifs at hx with hmem
  · exact (ord.mem_iter).1 hmem
  · cases hx

/-! ## Following the next hops -/

/-- From a node with a next hop the next hops lead to the root, and costs go down on the way. -/
theorem NextHops.exists_walk (h : NextHops c root tree) (k : ℕ) :
    ∀ v, (tree.getTreeLink v).isSome → tree.getCost v ≤ k →
      ∃ es, c.graph.Walk v root es ∧ (∀ e ∈ es, tree.getTreeLink e.src = some e) ∧
        c.graph.Simple es root ∧ ∀ u ∈ es.map Link.src ++ [root], tree.getCost u ≤ tree.getCost v := by
  induction k with
  | zero =>
    intro v hv hk
    obtain ⟨l, hl⟩ := Option.isSome_iff_exists.1 hv
    have h₀ := h.nonneg v l hl
    have hlt := h.descends v l hl
    exact absurd hk (by push_cast; omega)
  | succ k ih =>
    intro v hv hk
    obtain ⟨l, hl⟩ := Option.isSome_iff_exists.1 hv
    obtain rfl := h.src v l hl
    have hlt := h.descends _ l hl
    -- the walk from the other end of the link
    have hrest : ∃ es, c.graph.Walk l.dst root es ∧ (∀ e ∈ es, tree.getTreeLink e.src = some e) ∧
        c.graph.Simple es root ∧
        ∀ u ∈ es.map Link.src ++ [root], tree.getCost u ≤ tree.getCost l.dst := by
      rcases h.goesOn _ l hl with hroot | hsome
      · refine ⟨[], ?_, by simp, List.nodup_singleton _, ?_⟩
        · rw [hroot]
          exact .nil root
        · intro u hu
          rw [List.mem_singleton.1 hu, hroot]
      · refine ih l.dst hsome ?_
        push_cast at hk
        omega
    obtain ⟨es, hes, hhops, hs, hle⟩ := hrest
    refine ⟨l :: es, .cons (h.hasLink _ l hl) hes, ?_, ?_, ?_⟩
    · intro e he
      rcases List.mem_cons.1 he with rfl | he
      · exact hl
      · exact hhops e he
    · refine List.nodup_cons.2 ⟨fun hmem => ?_, hs⟩
      have := hle _ hmem
      rw [Cluster.graph_src] at this
      omega
    · intro u hu
      rcases List.mem_cons.1 hu with rfl | hu
      · exact le_rfl
      · exact (hle u hu).trans hlt.le

/-- The route along the next hops. -/
theorem NextHops.exists_route (h : NextHops c root tree) {v : Dpid}
    (hv : (tree.getTreeLink v).isSome) :
    ∃ es, c.graph.Walk v root es ∧ (∀ e ∈ es, tree.getTreeLink e.src = some e) ∧
      c.graph.Simple es root := by
  obtain ⟨l, hl⟩ := Option.isSome_iff_exists.1 hv
  have h₀ := h.nonneg v l hl
  have hlt := h.descends v l hl
  obtain ⟨es, hes, hhops, hs, -⟩ := h.exists_walk (tree.getCost v).toNat v hv (by omega)
  exact ⟨es, hes, hhops, hs⟩

end Torpedo
