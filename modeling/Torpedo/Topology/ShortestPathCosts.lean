import Mathlib.Data.List.MinMax
import Mathlib.Data.Prod.Lex
import Torpedo.Topology.DijkstraRun

/-!
# The costs of dijkstra

`NodeDist.compareTo` compares the distance of its argument with its own, so the queue yields a node
that is farthest from the root. The costs of the tree are the lengths of shortest paths if and only
if, in every search that enters the nodes farthest first, each node has a cheapest path that starts
with a link to a node entered at its least distance (`costsLeast_iff`).
-/

namespace Torpedo

section Definitions

variable (ord : HashOrder) (c : Cluster) (linkCost : Option (HashMap Link Int)) (root : Dpid)

/-- The cluster, the root and the link costs that `dijkstra` is meant for. -/
structure Priced : Prop where
  wellFormed : c.WellFormed
  root_mem : root ∈ c.getNodes
  bounded : c.CostsBounded linkCost
  sums : c.SumsBounded linkCost root

/-- Every node that reaches the root has the cost of a cheapest path. -/
def CostsLeast (queue : NodeQueue) : Prop :=
  ∃ tree, TopologyInstance.dijkstra ord queue c linkCost true root = some tree ∧
    ∀ v, c.graph.Reaches v root →
      IsLeast (c.graph.costs (weight linkCost) v root) (tree.getCost v)

/-- With the nodes of `L` entered, `n` waits at its first offer, and no other node has a larger
first offer. -/
structure Farthest (L : List NodeDist) (n : NodeDist) : Prop where
  fresh : n.node ∉ L.map NodeDist.node
  first : firstOffer root (offers ord c linkCost L) n.node = some n.dist
  le : ∀ v x, v ∉ L.map NodeDist.node → firstOffer root (offers ord c linkCost L) v = some x →
    x ≤ n.dist

/-- The nodes that are offered a distance from the root on, entered farthest first until no such
node is left. -/
structure FarthestFirst (L : List NodeDist) : Prop where
  farthest : ∀ L' n, L' ++ [n] <+: L → Farthest ord c linkCost root L' n
  complete : ∀ v, v ∉ L.map NodeDist.node → firstOffer root (offers ord c linkCost L) v = none

/-- Each node but the root has a cheapest path whose first link leads to a node that `L` enters at
its least distance. -/
def CheapestLinks (L : List NodeDist) : Prop :=
  ∀ v, v ≠ root → c.graph.Reaches v root → ∃ l d, c.HasLink l ∧ l.src = v ∧ ⟨l.dst, d⟩ ∈ L ∧
    IsLeast (c.graph.costs (weight linkCost) l.dst root) d ∧
    IsLeast (c.graph.costs (weight linkCost) v root) (d + weight linkCost l)

end Definitions

variable {ord : HashOrder} {c : Cluster} {linkCost : Option (HashMap Link Int)} {root : Dpid}
  {st : DijkstraState} {L : List NodeDist} {queue : NodeQueue}

/-! ## Offers to nodes that wait -/

theorem mem_offers {o : Link × Int} : o ∈ offers ord c linkCost L ↔
    ∃ n ∈ L, c.links.Has n.node o.1 ∧ o.2 = n.dist + weight linkCost o.1 := by
  have hOf : ∀ n : NodeDist, o ∈ offersOf ord c linkCost n ↔
      c.links.Has n.node o.1 ∧ o.2 = n.dist + weight linkCost o.1 := by
    intro n
    unfold offersOf
    constructor
    · intro ho
      obtain ⟨l, hl, rfl⟩ := List.mem_map.1 ho
      rw [HashOrder.mem_iter] at hl
      cases hs : c.links.get n.node with
      | none =>
        rw [hs] at hl
        cases hl
      | some s =>
        rw [hs] at hl
        exact ⟨⟨s, hs, hl⟩, rfl⟩
    · rintro ⟨⟨s, hs, hl⟩, ho⟩
      refine List.mem_map.2 ⟨o.1, ?_, ?_⟩
      · rw [HashOrder.mem_iter, hs]
        exact hl
      · rw [← ho]
  unfold offers
  simp only [List.mem_flatMap, hOf]

/-- A link from a node that has not been entered is offered on behalf of its destination, at the
length of a simple path. -/
theorem RunInv.offer_walk (hc : c.WellFormed)
    (h : RunInv c linkCost root st L (offers ord c linkCost L)) {o : Link × Int}
    (ho : o ∈ offers ord c linkCost L) (hv : o.1.src ∉ L.map NodeDist.node) :
    ∃ es, c.graph.Walk o.1.src root es ∧ c.graph.Simple es root ∧
      Multigraph.cost (weight linkCost) es = o.2 := by
  obtain ⟨n, hn, hhas, hdist⟩ := mem_offers.1 ho
  obtain ⟨hl, hend⟩ := hc.has_iff.1 hhas
  have hdst : o.1.dst = n.node := by
    rcases Link.mem_endSwitches.1 hend with e | e
    · exact absurd (List.mem_map.2 ⟨n, hn, e⟩) hv
    · exact e.symm
  obtain ⟨es, hes, hsum, hs, hmem⟩ := h.walk n hn
  refine ⟨o.1 :: es, .cons hl ?_, ?_, ?_⟩
  · rw [Cluster.graph_dst, hdst]
    exact hes
  · show (o.1.src :: (es.map Link.src ++ [root])).Nodup
    exact List.nodup_cons.2 ⟨fun hm => hv (hmem _ hm), hs⟩
  · rw [Multigraph.cost_cons, hsum, hdist]
    omega

/-- Path sums stay below the maximal path weight, so a node waits as soon as it has an offer. -/
theorem Priced.waits (hp : Priced c linkCost root)
    (h : RunInv c linkCost root st L (offers ord c linkCost L)) {v : Dpid} {x : Int}
    (hv : v ∉ L.map NodeDist.node)
    (hx : firstOffer root (offers ord c linkCost L) v = some x) : ⟨v, x⟩ ∈ st.nodeq := by
  refine h.queued v x (h.seen ▸ hv) hx ?_
  by_cases hroot : v = root
  · unfold firstOffer at hx
    rw [if_pos hroot] at hx
    obtain rfl := Option.some.inj hx
    decide
  · obtain ⟨o, ho, rfl, rfl⟩ := exists_offer hroot hx
    obtain ⟨es, hes, hs, hsum⟩ := h.offer_walk hp.wellFormed ho hv
    rw [← hsum]
    exact hp.sums _ es hes hs

/-! ## The head of the queue -/

theorem NodeDist.compareTo_of_ne {n o : NodeDist} (hne : o.dist ≠ n.dist)
    (hn : 0 ≤ n.dist ∧ n.dist < 2 ^ 31) (ho : 0 ≤ o.dist ∧ o.dist < 2 ^ 31) :
    n.compareTo o = o.dist - n.dist := by
  unfold NodeDist.compareTo
  rw [if_neg hne]
  apply toInt_eq
  · omega
  · omega

/-- The head of the queue is an entry of the largest distance. -/
theorem NodeQueue.dist_le_of_peek {q : List NodeDist} {n o : NodeDist} (hp : queue.peek q = some n)
    (hq : ∀ e ∈ q, 0 ≤ e.dist ∧ e.dist < 2 ^ 31) (ho : o ∈ q) : o.dist ≤ n.dist := by
  by_cases hne : o.dist = n.dist
  · exact le_of_eq hne
  · have hlt := queue.peek_first q n hp hq o ho hne
    rw [NodeDist.compareTo_of_ne hne (hq n (NodeQueue.mem_of_peek hp)) (hq o ho)] at hlt
    omega

theorem RunInv.dist_range {O : List (Link × Int)} (h : RunInv c linkCost root st L O) :
    ∀ e ∈ st.nodeq, 0 ≤ e.dist ∧ e.dist < 2 ^ 31 := by
  intro e he
  obtain ⟨-, h₀, h₁, -⟩ := h.queueRange e he
  unfold MAX_PATH_WEIGHT MAX_LINK_WEIGHT at h₁
  constructor
  · exact h₀
  · omega

/-- What the queue yields for a node that has not been entered is its first offer, and no waiting
node is farther. -/
theorem Priced.farthest_of_peek (hp : Priced c linkCost root)
    (h : RunInv c linkCost root st L (offers ord c linkCost L)) {n : NodeDist}
    (hn : queue.peek st.nodeq = some n) (hseen : n.node ∉ st.seen) :
    Farthest ord c linkCost root L n := by
  have hfresh : n.node ∉ L.map NodeDist.node := h.seen ▸ hseen
  have hle : ∀ v x, v ∉ L.map NodeDist.node →
      firstOffer root (offers ord c linkCost L) v = some x → x ≤ n.dist := fun v x hv hx =>
    NodeQueue.dist_le_of_peek hn h.dist_range (hp.waits h hv hx)
  obtain ⟨x, hx, hnx⟩ := h.leFirstOffer n (NodeQueue.mem_of_peek hn) hseen
  obtain rfl : n.dist = x := le_antisymm hnx (hle _ x hfresh hx)
  exact ⟨hfresh, hx, hle⟩

/-! ## The search of a run -/

theorem Priced.complete (hp : Priced c linkCost root)
    (h : RunInv c linkCost root st L (offers ord c linkCost L)) (hq : st.nodeq = []) {v : Dpid}
    (hv : v ∉ L.map NodeDist.node) : firstOffer root (offers ord c linkCost L) v = none := by
  cases hx : firstOffer root (offers ord c linkCost L) v with
  | none => rfl
  | some x =>
    have hw := hp.waits h hv hx
    rw [hq] at hw
    cases hw

theorem root_mem_of_complete
    (hL : ∀ v, v ∉ L.map NodeDist.node → firstOffer root (offers ord c linkCost L) v = none) :
    root ∈ L.map NodeDist.node := by
  by_contra hroot
  have hf := hL root hroot
  unfold firstOffer at hf
  rw [if_pos rfl] at hf
  cases hf

/-- A link to an entered node is an offer. -/
theorem mem_offers_of_dst (hc : c.WellFormed) {l : Link} (hl : c.HasLink l) {d : Int}
    (hd : ⟨l.dst, d⟩ ∈ L) : (l, d + weight linkCost l) ∈ offers ord c linkCost L :=
  mem_offers.2 ⟨_, hd, hc.has_iff.2 ⟨hl, by simp⟩, rfl⟩

/-- A complete search enters every node that reaches the root. -/
theorem mem_of_reaches (hc : c.WellFormed)
    (hL : ∀ v, v ∉ L.map NodeDist.node → firstOffer root (offers ord c linkCost L) v = none)
    {v : Dpid} (hv : c.graph.Reaches v root) : v ∈ L.map NodeDist.node := by
  refine hv.induction_on_edge (root_mem_of_complete hL) ?_
  intro l hl hdst
  obtain ⟨n, hn, hnode⟩ := List.mem_map.1 hdst
  by_contra hsrc
  have hd : ⟨l.dst, n.dist⟩ ∈ L := by
    rw [← Cluster.graph_dst c, ← hnode]
    exact hn
  obtain ⟨x, hx⟩ : ∃ x, firstOffer root (offers ord c linkCost L) l.src = some x :=
    firstOffer_isSome (mem_offers_of_dst hc hl hd) rfl
  rw [← Cluster.graph_src c, hL _ hsrc] at hx
  cases hx

/-- At the end of a run the cost of a node is the least offer that it had. -/
theorem RunInv.cost_of_complete (hc : c.WellFormed)
    (h : RunInv c linkCost root st L (offers ord c linkCost L))
    (hL : ∀ v, v ∉ L.map NodeDist.node → firstOffer root (offers ord c linkCost L) v = none)
    {v : Dpid} (hv : c.graph.Reaches v root) (hne : v ≠ root) :
    ∃ x, st.cost.get v = some x ∧
      (∃ l d, c.HasLink l ∧ l.src = v ∧ ⟨l.dst, d⟩ ∈ L ∧ x = d + weight linkCost l) ∧
      ∀ l d, c.HasLink l → l.src = v → ⟨l.dst, d⟩ ∈ L → x ≤ d + weight linkCost l := by
  obtain ⟨es, hes⟩ := hv.exists_walk
  obtain ⟨l₀, -, hl₀, rfl, -⟩ := hes.exists_edge hne
  obtain ⟨x, hx, -, hall, hex⟩ := h.cost _ (hc.src_mem hl₀) hne
  refine ⟨x, hx, ?_, fun l d hl hsrc hd => hall _ (mem_offers_of_dst hc hl hd) hsrc⟩
  rcases hex with ⟨rfl, -⟩ | ⟨n, hn, l, hl, hsrc, hdst, hdist, -⟩
  · -- the node has been entered below the maximal path weight
    obtain ⟨n, hn, hnode⟩ := List.mem_map.1 (mem_of_reaches hc hL hv)
    obtain ⟨-, hlt, y, hy, hle⟩ := h.entered n hn
    rw [hnode] at hy
    have := Option.some.inj (hx.symm.trans hy)
    omega
  · exact ⟨l, n.dist, h.offered _ hl, hsrc, hdst ▸ hn, hdist⟩

/-- The costs of a run are least if and only if its search passes cheapest links. -/
theorem RunInv.costs_isLeast_iff (hp : Priced c linkCost root)
    (h : RunInv c linkCost root st L (offers ord c linkCost L))
    (hL : ∀ v, v ∉ L.map NodeDist.node → firstOffer root (offers ord c linkCost L) v = none) :
    (∀ v, c.graph.Reaches v root → IsLeast (c.graph.costs (weight linkCost) v root)
      (BroadcastTree.getCost ⟨st.nexthoplinks, st.cost⟩ v)) ↔ CheapestLinks c linkCost root L := by
  have hget : ∀ {v x}, st.cost.get v = some x →
      BroadcastTree.getCost ⟨st.nexthoplinks, st.cost⟩ v = x := by
    intro v x hx
    unfold BroadcastTree.getCost
    rw [hx]
  -- entered distances and offers are lengths of walks
  have hentered : ∀ {v d}, ⟨v, d⟩ ∈ L → d ∈ c.graph.costs (weight linkCost) v root := by
    intro v d hd
    obtain ⟨es, hes, hsum, -⟩ := h.walk _ hd
    exact ⟨es, hes, hsum⟩
  have hcons : ∀ {l x}, c.HasLink l → x ∈ c.graph.costs (weight linkCost) l.dst root →
      x + weight linkCost l ∈ c.graph.costs (weight linkCost) l.src root := by
    rintro l x hl ⟨es, hes, rfl⟩
    exact ⟨l :: es, .cons hl hes, by rw [Multigraph.cost_cons]; omega⟩
  constructor
  · intro hleast v hne hv
    obtain ⟨x, hx, ⟨l, d, hl, rfl, hd, rfl⟩, -⟩ := h.cost_of_complete hp.wellFormed hL hv hne
    have hlv := hleast l.src hv
    rw [hget hx] at hlv
    refine ⟨l, d, hl, rfl, hd, ⟨hentered hd, ?_⟩, hlv⟩
    intro y hy
    have := hlv.2 (hcons hl hy)
    omega
  · intro hcheap v hv
    by_cases hne : v = root
    · rw [hne, hget h.rootCost]
      exact Multigraph.isLeast_costs_self (fun l hl => (hp.bounded l hl).1) root
    · obtain ⟨x, hx, ⟨l, d, hl, hsrc, hd, hdist⟩, hmin⟩ :=
        h.cost_of_complete hp.wellFormed hL hv hne
      obtain ⟨l', d', hl', hsrc', hd', -, hleast⟩ := hcheap v hne hv
      have hle : x ≤ d' + weight linkCost l' := hmin l' d' hl' hsrc' hd'
      have hge : d' + weight linkCost l' ≤ x := by
        apply hleast.2
        rw [hdist, ← hsrc]
        exact hcons hl (hentered hd)
      rw [hget hx, le_antisymm hle hge]
      exact hleast

/-! ## A queue for every search -/

/-- The queue that yields an entry of the largest distance, and among these the one that comes
first in `L`. -/
def NodeQueue.following (L : List NodeDist) : NodeQueue where
  peek q := q.argmax fun n => toLex (n.dist, -(L.idxOf n : ℤ))
  peek_nil := rfl
  peek_mem q hq := by
    cases h : q.argmax fun n => toLex (n.dist, -(L.idxOf n : ℤ)) with
    | none => exact absurd (List.argmax_eq_none.1 h) hq
    | some n => exact ⟨n, List.argmax_mem h, rfl⟩
  peek_first q n hn hq o ho hne := by
    have hle := List.le_of_mem_argmax ho hn
    rw [Prod.Lex.toLex_le_toLex] at hle
    rw [NodeDist.compareTo_of_ne hne (hq n (List.argmax_mem hn)) (hq o ho)]
    dsimp only at hle
    omega

theorem NodeQueue.peek_following {q : List NodeDist} {n o : NodeDist}
    (h : (NodeQueue.following L).peek q = some n) (ho : o ∈ q) (hd : o.dist = n.dist) :
    L.idxOf n ≤ L.idxOf o := by
  have hle := List.le_of_mem_argmax ho h
  rw [Prod.Lex.toLex_le_toLex] at hle
  dsimp only at hle
  omega

/-- The queue that follows a search yields the next node of this search. -/
theorem Priced.eq_of_peek_following (hp : Priced c linkCost root) {L' : List NodeDist}
    (hL : FarthestFirst ord c linkCost root L)
    (h : RunInv c linkCost root st L' (offers ord c linkCost L')) (hpre : L' <+: L) {n : NodeDist}
    (hn : (NodeQueue.following L).peek st.nodeq = some n) (hseen : n.node ∉ st.seen) :
    L' ++ [n] <+: L := by
  have hfar := hp.farthest_of_peek h hn hseen
  obtain ⟨rest, hrest⟩ := hpre
  cases rest with
  | nil =>
    rw [List.append_nil] at hrest
    subst hrest
    have hnone := hL.complete _ hfar.fresh
    rw [hfar.first] at hnone
    cases hnone
  | cons m rest =>
    have hm : L' ++ [m] <+: L := ⟨rest, by rw [← hrest]; simp⟩
    have hfarm := hL.farthest L' m hm
    have hdist : m.dist = n.dist :=
      le_antisymm (hfar.le _ _ hfarm.fresh hfarm.first) (hfarm.le _ _ hfar.fresh hfar.first)
    have hidx := NodeQueue.peek_following hn (hp.waits h hfarm.fresh hfarm.first) hdist
    have hnotin : ∀ {e : NodeDist}, e.node ∉ L'.map NodeDist.node → e ∉ L' :=
      fun he hmem => he (List.mem_map_of_mem hmem)
    rw [← hrest, List.idxOf_append_of_notMem (hnotin hfar.fresh),
      List.idxOf_append_of_notMem (hnotin hfarm.fresh), List.idxOf_cons_self] at hidx
    have hzero : (m :: rest).idxOf n = 0 := by omega
    have hmn : m = n := by
      by_contra hmn
      rw [List.idxOf_cons_ne _ hmn] at hzero
      omega
    exact hmn ▸ hm

/-! ## The condition -/

/-- Whichever of the farthest nodes the queue yields, the costs are those of cheapest paths, if and
only if every search that enters the farthest node first passes cheapest links. -/
theorem costsLeast_iff (ord : HashOrder) (c : Cluster) (linkCost : Option (HashMap Link Int))
    (root : Dpid) (hp : Priced c linkCost root) :
    (∀ queue, CostsLeast ord c linkCost root queue) ↔
      ∀ L, FarthestFirst ord c linkCost root L → CheapestLinks c linkCost root L := by
  constructor
  · intro hleast L hL
    obtain ⟨st, L', hst, hI, hpre, hq⟩ := dijkstra_run ord (.following L) hp.wellFormed
      hp.bounded hp.root_mem (Q := fun L' => L' <+: L) List.nil_prefix fun st L' n hI hpre hn hseen => hp.eq_of_peek_following hL hI hpre hn hseen
    -- the search of the run is the whole of `L`
    obtain rfl : L' = L := by
      obtain ⟨rest, rfl⟩ := hpre
      cases rest with
      | nil => rw [List.append_nil]
      | cons m rest =>
        have hfar := hL.farthest L' m ⟨rest, by simp⟩
        have hnone := hp.complete hI hq hfar.fresh
        rw [hfar.first] at hnone
        cases hnone
    obtain ⟨tree, htree, hcosts⟩ := hleast (NodeQueue.following L')
    obtain rfl := Option.some.inj (htree.symm.trans hst)
    exact (hI.costs_isLeast_iff hp hL.complete).1 hcosts
  · intro hcheap queue
    obtain ⟨st, L, hst, hI, hfar, hq⟩ := dijkstra_run ord queue hp.wellFormed hp.bounded
      hp.root_mem
      (Q := fun L => ∀ L' n, L' ++ [n] <+: L → Farthest ord c linkCost root L' n)
      (by simp)
      (fun st L n hI hQ hn hseen L' m hpre => by
        rcases List.prefix_concat_iff.1 hpre with e | hpre
        · obtain ⟨rfl, he⟩ := List.append_inj' e rfl
          obtain rfl := List.singleton_inj.1 he
          exact hp.farthest_of_peek hI hn hseen
        · exact hQ L' m hpre)
    have hL : FarthestFirst ord c linkCost root L := ⟨hfar, fun v hv => hp.complete hI hq hv⟩
    exact ⟨_, hst, (hI.costs_isLeast_iff hp hL.complete).2 (hcheap L hL)⟩

/-! ## A tunnel beside a shorter way -/

/-- Path sums are bounded where the switches are few. -/
theorem Priced.of_length (hc : c.WellFormed) (hroot : root ∈ c.getNodes)
    (hw : c.CostsBounded linkCost) (hlen : c.getNodes.length * MAX_LINK_WEIGHT < MAX_PATH_WEIGHT) :
    Priced c linkCost root where
  wellFormed := hc
  root_mem := hroot
  bounded := hw
  sums v es hes hs := by
    have hlt := hes.length_lt hs (fun l hl => hc.src_mem hl) hroot
    have hle := hes.cost_le (b := MAX_LINK_WEIGHT) fun l hl => (hw l hl).2
    unfold MAX_PATH_WEIGHT MAX_LINK_WEIGHT at *
    omega

/-- A tunnel joins the switches 1 and 2, which are also joined by way of switch 3. Switch 4 is
connected to switch 2. -/
def tunnelledLinks : List Link :=
  [⟨1, 1, 2, 1⟩, ⟨2, 1, 1, 1⟩, ⟨1, 2, 3, 1⟩, ⟨3, 1, 1, 2⟩, ⟨2, 2, 3, 2⟩, ⟨3, 2, 2, 2⟩, ⟨2, 3, 4, 1⟩,
    ⟨4, 1, 2, 3⟩]

def tunnelled : Cluster := tunnelledLinks.foldl Cluster.addLink .empty

def tunnelledCost : HashMap Link Int := (HashMap.put ∅ ⟨1, 1, 2, 1⟩ 5).put ⟨2, 1, 1, 1⟩ 5

theorem priced_tunnelled : Priced tunnelled (some tunnelledCost) 1 := by
  refine .of_length (Cluster.wellFormed_ofLinks _) (by decide) ?_ (by decide)
  intro l hl
  have hall : ∀ l ∈ tunnelledLinks, 0 < weight (some tunnelledCost) l ∧
      weight (some tunnelledCost) l ≤ MAX_LINK_WEIGHT := by decide
  exact hall l (Cluster.hasLink_ofLinks.1 hl)

theorem costsLeast_iff_tunnelled :
    (∀ queue, CostsLeast .insertion tunnelled (some tunnelledCost) 1 queue) ↔
      ∀ L, FarthestFirst .insertion tunnelled (some tunnelledCost) 1 L →
        CheapestLinks tunnelled (some tunnelledCost) 1 L :=
  costsLeast_iff .insertion tunnelled (some tunnelledCost) 1 priced_tunnelled

/-- Switch 2 is entered over the tunnel before the way over switch 3 is known, so switch 4 is given
the cost 6; its path over the switches 2 and 3 costs 3. -/
theorem not_costsLeast_tunnelled : Priced tunnelled (some tunnelledCost) 1 ∧
    ¬CostsLeast .insertion tunnelled (some tunnelledCost) 1 (.following []) := by
  refine ⟨priced_tunnelled, ?_⟩
  rintro ⟨tree, htree, hleast⟩
  have hcost : (TopologyInstance.dijkstra .insertion (.following []) tunnelled (some tunnelledCost)
      true 1).map (BroadcastTree.getCost · 4) = some 6 := by decide
  rw [htree] at hcost
  have hlink : ∀ l ∈ tunnelledLinks, tunnelled.graph.IsEdge l := fun l => Cluster.hasLink_ofLinks.2
  have hwalk : tunnelled.graph.Walk 4 1 [⟨4, 1, 2, 3⟩, ⟨2, 2, 3, 2⟩, ⟨3, 1, 1, 2⟩] := by
    refine .cons (hlink ⟨4, 1, 2, 3⟩ (by decide)) ?_
    refine .cons (hlink ⟨2, 2, 3, 2⟩ (by decide)) ?_
    exact .cons (hlink ⟨3, 1, 1, 2⟩ (by decide)) (.nil 1)
  have hle : tree.getCost 4 ≤ 3 := (hleast 4 hwalk.reaches).2 ⟨_, hwalk, by decide⟩
  have hsix : tree.getCost 4 = 6 := Option.some.inj hcost
  omega

end Torpedo
