import Mathlib.Tactic.Ring
import Torpedo.Topology.Components
import Torpedo.Topology.NextHops

/-!
# Chains of tunnels

Along a chain of links of equal weight `dijkstra` enters one node after the other. Where the weight
is above `MAX_LINK_WEIGHT` the distance of the last node may exceed an `int`: it comes out negative,
the nodes before it take it for a short cut, and the next hops of the last nodes lead round in a
circle (`Chain.turnedBack`).
-/

namespace Torpedo

section Lowered

variable {linkCost : Option (HashMap Link Int)} {d : Int} {ls : List Link} {st st' : DijkstraState}

/-- The distance `d` is less than the cost of the node. -/
def DijkstraState.Improves (st : DijkstraState) (d : Int) (v : Dpid) : Prop :=
  ∃ x, st.cost.get v = some x ∧ d < x

/-- What links do that all offer the same distance `d`. -/
structure Lowered (ls : List Link) (d : Int) (st st' : DijkstraState) : Prop where
  seen : st'.seen = st.seen
  taken : ∀ l ∈ ls, st.Improves d l.src → st'.cost.get l.src = some d ∧
    (∃ l' ∈ ls, l'.src = l.src ∧ st'.nexthoplinks.get l.src = some (some l')) ∧
    ⟨l.src, d⟩ ∈ st'.nodeq
  kept : ∀ v, v ∉ ls.map Link.src ∨ ¬st.Improves d v →
    st'.cost.get v = st.cost.get v ∧ st'.nexthoplinks.get v = st.nexthoplinks.get v
  queued : ∀ n ∈ st.nodeq, n ∈ st'.nodeq
  origin : ∀ n ∈ st'.nodeq, n ∈ st.nodeq ∨
    n.dist = d ∧ n.node ∈ ls.map Link.src ∧ st.Improves d n.node

theorem Lowered.refl (d : Int) (st : DijkstraState) : Lowered [] d st st where
  seen := rfl
  taken := by simp
  kept _ _ := ⟨rfl, rfl⟩
  queued _ h := h
  origin _ h := .inl h

/-- A link that offers no less than the cost. -/
theorem Lowered.cons_keep {l : Link} (hl : ¬st.Improves d l.src) (h : Lowered ls d st st') :
    Lowered (l :: ls) d st st' where
  seen := h.seen
  taken l' hl' himp := by
    rcases List.mem_cons.1 hl' with rfl | hl'
    · exact absurd himp hl
    · obtain ⟨hc, ⟨l'', hl'', hh⟩, hq⟩ := h.taken l' hl' himp
      exact ⟨hc, ⟨l'', List.mem_cons_of_mem l hl'', hh⟩, hq⟩
  kept v hv := by
    refine h.kept v (hv.imp_left fun hv hmem => hv ?_)
    rw [List.map_cons]
    exact List.mem_cons_of_mem _ hmem
  queued := h.queued
  origin n hn := by
    rcases h.origin n hn with hn | ⟨hd, hmem, himp⟩
    · exact .inl hn
    · refine .inr ⟨hd, ?_, himp⟩
      rw [List.map_cons]
      exact List.mem_cons_of_mem _ hmem

/-- The state after an offer is taken. -/
def DijkstraState.take (st : DijkstraState) (d : Int) (l : Link) : DijkstraState :=
  { st with
    cost := st.cost.put l.src d
    nexthoplinks := st.nexthoplinks.put l.src (some l)
    nodeq := st.nodeq ++ [⟨l.src, d⟩] }

theorem improves_take {l : Link} {v : Dpid} :
    (st.take d l).Improves d v ↔ v ≠ l.src ∧ st.Improves d v := by
  unfold DijkstraState.Improves DijkstraState.take
  dsimp only
  rw [HashMap.get_put]
  split_ifs with h
  · simp [h]
  · simp [h]

theorem Lowered.cons_take {l : Link} (hl : st.Improves d l.src)
    (h : Lowered ls d (st.take d l) st') : Lowered (l :: ls) d st st' where
  seen := h.seen
  taken l' hl' himp := by
    by_cases hsrc : l'.src = l.src
    · obtain ⟨hc, hh⟩ := h.kept l.src (.inr fun himp' => (improves_take.1 himp').1 rfl)
      refine ⟨?_, ⟨l, List.mem_cons_self, hsrc.symm, ?_⟩, h.queued _ ?_⟩
      · rw [hsrc, hc]
        exact HashMap.get_put_self _ _ _
      · rw [hsrc, hh]
        exact HashMap.get_put_self _ _ _
      · rw [hsrc]
        exact List.mem_append_right _ (List.mem_singleton.2 rfl)
    · have hmem : l' ∈ ls := (List.mem_cons.1 hl').resolve_left fun he => hsrc (he ▸ rfl)
      obtain ⟨hc, ⟨l'', hl'', hh⟩, hq⟩ := h.taken l' hmem (improves_take.2 ⟨hsrc, himp⟩)
      exact ⟨hc, ⟨l'', List.mem_cons_of_mem l hl'', hh⟩, hq⟩
  kept v hv := by
    have hne : v ≠ l.src := by
      rintro rfl
      rcases hv with hv | hv
      · exact hv (List.mem_map_of_mem List.mem_cons_self)
      · exact hv hl
    have hv' : v ∉ ls.map Link.src ∨ ¬(st.take d l).Improves d v := by
      rcases hv with hv | hv
      · left
        intro hmem
        rw [List.map_cons] at hv
        exact hv (List.mem_cons_of_mem _ hmem)
      · exact .inr fun himp => hv (improves_take.1 himp).2
    obtain ⟨hc, hh⟩ := h.kept v hv'
    rw [hc, hh]
    show (HashMap.put _ _ _).get v = _ ∧ (HashMap.put _ _ _).get v = _
    rw [HashMap.get_put, HashMap.get_put, if_neg hne, if_neg hne]
    exact ⟨rfl, rfl⟩
  queued n hn := h.queued n (List.mem_append_left _ hn)
  origin n hn := by
    rcases h.origin n hn with hn | ⟨hd, hmem, himp⟩
    · rcases List.mem_append.1 hn with hn | hn
      · exact .inl hn
      · rw [List.mem_singleton.1 hn]
        exact .inr ⟨rfl, List.mem_map_of_mem List.mem_cons_self, hl⟩
    · refine .inr ⟨hd, ?_, (improves_take.1 himp).2⟩
      rw [List.map_cons]
      exact List.mem_cons_of_mem _ hmem

theorem relaxAll_lowered {cdist : Int} (ls : List Link)
    (hd : ∀ l ∈ ls, toInt (cdist + weight linkCost l) = d) :
    ∀ st, DijkstraState.relaxAll linkCost true cdist ls st = some st' → Lowered ls d st st' := by
  induction ls with
  | nil =>
    intro st h
    obtain rfl := Option.some.inj h
    exact .refl d st
  | cons l ls ih =>
    intro st h
    unfold DijkstraState.relaxAll at h
    obtain ⟨st₁, hr, h⟩ := Option.bind_eq_some_iff.1 h
    have ih₁ := ih (fun l' hl' => hd l' (List.mem_cons_of_mem l hl')) st₁ h
    unfold DijkstraState.relax at hr
    dsimp only at hr
    rw [if_pos rfl, hd l List.mem_cons_self] at hr
    obtain ⟨x, hx, hr⟩ := Option.bind_eq_some_iff.1 hr
    split_ifs at hr with hlt
    · obtain rfl := Option.some.inj hr
      exact .cons_take ⟨x, hx, hlt⟩ ih₁
    · obtain rfl := Option.some.inj hr
      refine .cons_keep ?_ ih₁
      rintro ⟨x', hx', hlt'⟩
      obtain rfl := Option.some.inj (hx.symm.trans hx')
      exact hlt hlt'

/-- A round of the loop that takes the entry `e`. -/
theorem dijkstraLoop_round {ord : HashOrder} {queue : NodeQueue} {c : Cluster} {fuel : ℕ}
    {e : NodeDist} (hp : queue.peek st.nodeq = some e) (hlt : e.dist < MAX_PATH_WEIGHT)
    (h : TopologyInstance.dijkstraLoop ord queue c linkCost true (fuel + 1) st = some st') :
    (e.node ∈ st.seen ∧ TopologyInstance.dijkstraLoop ord queue c linkCost true fuel
        { st with nodeq := st.nodeq.erase e } = some st') ∨
    (e.node ∉ st.seen ∧ ∃ links st₁, c.links.get e.node = some links ∧
      DijkstraState.relaxAll linkCost true e.dist (ord.iter links)
        { st with nodeq := st.nodeq.erase e, seen := setAdd st.seen e.node } = some st₁ ∧
      TopologyInstance.dijkstraLoop ord queue c linkCost true fuel st₁ = some st') := by
  unfold TopologyInstance.dijkstraLoop at h
  rw [hp] at h
  dsimp only at h
  rw [if_neg (not_le.2 hlt)] at h
  split_ifs at h with hseen
  · exact .inl ⟨hseen, h⟩
  · obtain ⟨links, hlinks, h⟩ := Option.bind_eq_some_iff.1 h
    obtain ⟨st₁, hr, h⟩ := Option.bind_eq_some_iff.1 h
    exact .inr ⟨hseen, links, st₁, hlinks, hr, h⟩

end Lowered

/-! ## Chains -/

/-- The nodes `y 0` to `y n` of the cluster are joined by the links `up k` from `y k` to
`y (k + 1)` and their reverses, all of weight `w`. -/
structure Chain (c : Cluster) (linkCost : Option (HashMap Link Int)) (w : Int) (y : ℕ → Dpid)
    (up : ℕ → Link) (n : ℕ) : Prop where
  wellFormed : c.WellFormed
  inj : ∀ j k, j ≤ n → k ≤ n → y j = y k → j = k
  src : ∀ k, (up k).src = y k
  dst : ∀ k, (up k).dst = y (k + 1)
  mem : ∀ k ≤ n, y k ∈ c.getNodes
  hasLink : ∀ l, c.HasLink l ↔ ∃ k < n, l = up k ∨ l = (up k).reverse
  weight : ∀ l, c.HasLink l → weight linkCost l = w

/-- The state in which the nodes before `y k` have been entered and `y k` waits. -/
structure Advanced (w : Int) (y : ℕ → Dpid) (up : ℕ → Link) (n k : ℕ) (st : DijkstraState) :
    Prop where
  cost : ∀ j ≤ n, st.cost.get (y j) = some (if j ≤ k then j * w else MAX_PATH_WEIGHT)
  rootHop : st.nexthoplinks.get (y 0) = some none
  hop : ∀ j < k, st.nexthoplinks.get (y (j + 1)) = some (some (up j).reverse)
  seen : ∀ j ≤ n, y j ∈ st.seen ↔ j < k
  queued : ⟨y k, k * w⟩ ∈ st.nodeq
  origin : ∀ e ∈ st.nodeq, e = ⟨y k, k * w⟩ ∨ e.node ∈ st.seen ∧ e.dist < MAX_PATH_WEIGHT

/-- The next hops of the last three nodes lead round in a circle. -/
structure TurnedBack (y : ℕ → Dpid) (up : ℕ → Link) (m : ℕ) (links : HashMap Dpid (Option Link)) :
    Prop where
  rootHop : links.get (y 0) = some none
  hop : ∀ j < m, links.get (y (j + 1)) = some (some (up j).reverse)
  first : links.get (y (m + 1)) = some (some (up (m + 1)))
  second : links.get (y (m + 2)) = some (some (up (m + 1)).reverse) ∨
    links.get (y (m + 2)) = some (some (up (m + 2)))
  last : links.get (y (m + 3)) = some (some (up (m + 2)).reverse)

section Chain

variable {ord : HashOrder} {queue : NodeQueue} {c : Cluster}
  {linkCost : Option (HashMap Link Int)} {w : Int} {y : ℕ → Dpid} {up : ℕ → Link} {n k : ℕ}
  {st st' : DijkstraState}

/-- The links at a node of the chain. -/
theorem Chain.mem_links (h : Chain c linkCost w y up n) (hk : k ≤ n) {links : List Link}
    (hlinks : c.links.get (y k) = some links) {l : Link} :
    l ∈ links ↔ ∃ j < n, (j = k ∨ j + 1 = k) ∧ (l = up j ∨ l = (up j).reverse) := by
  have hhas : l ∈ links ↔ c.links.Has (y k) l := by
    constructor
    · exact fun hl => ⟨links, hlinks, hl⟩
    · rintro ⟨links', hlinks', hl⟩
      obtain rfl := Option.some.inj (hlinks.symm.trans hlinks')
      exact hl
  rw [hhas, h.wellFormed.has_iff, h.hasLink]
  constructor
  · rintro ⟨⟨j, hj, hl⟩, hend⟩
    refine ⟨j, hj, ?_, hl⟩
    have hyk : y k = y j ∨ y k = y (j + 1) := by
      rcases hl with rfl | rfl
      · rw [Link.mem_endSwitches, h.src, h.dst] at hend
        exact hend
      · rw [Link.mem_endSwitches] at hend
        change y k = (up j).dst ∨ y k = (up j).src at hend
        rw [h.src, h.dst] at hend
        exact hend.symm
    rcases hyk with he | he
    · exact .inl (h.inj j k hj.le hk he.symm)
    · exact .inr (h.inj (j + 1) k hj hk he.symm)
  · rintro ⟨j, hj, hjk, hl⟩
    refine ⟨⟨j, hj, hl⟩, ?_⟩
    rw [Link.mem_endSwitches]
    rcases hl with rfl | rfl
    · rw [h.src, h.dst]
      rcases hjk with rfl | rfl
      · exact .inl rfl
      · exact .inr rfl
    · show y k = (up j).dst ∨ y k = (up j).src
      rw [h.src, h.dst]
      rcases hjk with rfl | rfl
      · exact .inr rfl
      · exact .inl rfl

/-- The link over which a node of the chain is offered a distance by another. -/
theorem Chain.link_of_src (h : Chain c linkCost w y up n) (hk : k ≤ n) {links : List Link}
    (hlinks : c.links.get (y k) = some links) {l : Link} (hl : l ∈ links) {i : ℕ} (hi : i ≤ n)
    (hsrc : l.src = y i) :
    l = up i ∧ i < n ∧ (i = k ∨ i + 1 = k) ∨
      ∃ j, i = j + 1 ∧ l = (up j).reverse ∧ (j = k ∨ j + 1 = k) := by
  obtain ⟨j, hj, hjk, rfl | rfl⟩ := (h.mem_links hk hlinks).1 hl
  · rw [h.src] at hsrc
    obtain rfl := h.inj j i hj.le hi hsrc
    exact .inl ⟨rfl, hj, hjk⟩
  · change (up j).dst = y i at hsrc
    rw [h.dst] at hsrc
    exact .inr ⟨j, (h.inj (j + 1) i hj hi hsrc).symm, rfl, hjk⟩

/-- All links at the node that is entered offer the same distance. -/
theorem Chain.lowered (h : Chain c linkCost w y up n) {e : NodeDist} {links : List Link}
    (hlinks : c.links.get e.node = some links)
    (hr : DijkstraState.relaxAll linkCost true e.dist (ord.iter links) st = some st') :
    Lowered (ord.iter links) (toInt (e.dist + w)) st st' := by
  refine relaxAll_lowered _ (fun l hl => ?_) _ hr
  have hlink : c.HasLink l := (h.wellFormed.has_iff.1 ⟨links, hlinks, (ord.mem_iter).1 hl⟩).1
  rw [h.weight l hlink]

/-- While nothing overflows, the next node is given its distance. -/
theorem Advanced.enter (h : Chain c linkCost w y up n) (hA : Advanced w y up n k st) (hk : k < n)
    (hw : 0 < w) (hlt : (k + 1) * w < MAX_PATH_WEIGHT) {links : List Link}
    (hlinks : c.links.get (y k) = some links)
    (hL : Lowered (ord.iter links) ((k + 1) * w)
      { st with nodeq := st.nodeq.erase ⟨y k, k * w⟩, seen := setAdd st.seen (y k) } st') :
    Advanced w y up n (k + 1) st' := by
  set st₀ : DijkstraState :=
    { st with nodeq := st.nodeq.erase ⟨y k, k * w⟩, seen := setAdd st.seen (y k) }
  -- only the next node is offered less than its cost
  have himp : ∀ j ≤ n, st₀.Improves ((k + 1) * w) (y j) ↔ k < j := by
    intro j hj
    have hcost : st₀.cost.get (y j) = _ := hA.cost j hj
    unfold DijkstraState.Improves
    rw [hcost]
    by_cases hjk : j ≤ k
    · have hle : (j : Int) * w ≤ k * w := by
        apply Int.mul_le_mul_of_nonneg_right _ hw.le
        omega
      have hadd : ((k : Int) + 1) * w = k * w + w := by ring
      simp only [if_pos hjk, Option.some.injEq, exists_eq_left']
      omega
    · simp only [if_neg hjk, Option.some.injEq, exists_eq_left']
      omega
  have hsrc : ∀ j ≤ n, k < j → y j ∈ (ord.iter links).map Link.src → j = k + 1 := by
    intro j hj hjk hmem
    obtain ⟨l, hl, hlj⟩ := List.mem_map.1 hmem
    rcases h.link_of_src hk.le hlinks ((ord.mem_iter).1 hl) hj hlj with ⟨-, -, he⟩ | ⟨i, rfl, -, he⟩
    · omega
    · omega
  have hnext : (up k).reverse ∈ ord.iter links :=
    (ord.mem_iter).2 ((h.mem_links hk.le hlinks).2 ⟨k, hk, .inl rfl, .inr rfl⟩)
  have hnextsrc : (up k).reverse.src = y (k + 1) := h.dst k
  have htaken := hL.taken _ hnext (by rw [hnextsrc]; exact (himp _ hk).2 (Nat.lt_succ_self k))
  rw [hnextsrc] at htaken
  have hkept : ∀ j ≤ n, j ≠ k + 1 → st'.cost.get (y j) = st.cost.get (y j) ∧
      st'.nexthoplinks.get (y j) = st.nexthoplinks.get (y j) := by
    intro j hj hne
    refine hL.kept (y j) ?_
    by_cases hjk : k < j
    · exact .inl fun hmem => hne (hsrc j hj hjk hmem)
    · exact .inr fun h => hjk ((himp j hj).1 h)
  constructor
  · intro j hj
    by_cases he : j = k + 1
    · subst he
      rw [htaken.1, if_pos le_rfl]
      push_cast
      rfl
    · rw [(hkept j hj he).1, hA.cost j hj]
      by_cases hjk : j ≤ k
      · rw [if_pos hjk, if_pos (by omega)]
      · rw [if_neg hjk, if_neg (by omega)]
  · rw [(hkept 0 (Nat.zero_le n) (by omega)).2]
    exact hA.rootHop
  · intro j hj
    by_cases he : j = k
    · subst he
      obtain ⟨l, hl, hlsrc, hhop⟩ := htaken.2.1
      rw [hhop]
      rcases h.link_of_src hk.le hlinks ((ord.mem_iter).1 hl) hk hlsrc with ⟨-, -, he⟩ | ⟨i, hi, rfl, -⟩
      · omega
      · obtain rfl : j = i := by omega
        rfl
    · rw [(hkept (j + 1) (by omega) (by omega)).2]
      exact hA.hop j (by omega)
  · intro j hj
    rw [hL.seen]
    show y j ∈ setAdd st.seen (y k) ↔ j < k + 1
    rw [mem_setAdd, hA.seen j hj]
    constructor
    · rintro (hlt | he)
      · omega
      · have := h.inj j k hj hk.le he
        omega
    · intro hjk
      by_cases he : j = k
      · exact .inr (congrArg y he)
      · exact .inl (by omega)
  · push_cast
    exact htaken.2.2
  · intro e he
    rcases hL.origin e he with he | ⟨hd, hmem, himp'⟩
    · right
      have hmem : e.node ∈ setAdd st.seen (y k) ∧ e.dist < MAX_PATH_WEIGHT := by
        rcases hA.origin e (List.mem_of_mem_erase he) with rfl | ⟨hs, hd⟩
        · refine ⟨(mem_setAdd _).2 (.inr rfl), ?_⟩
          show (k : Int) * w < _
          have hadd : ((k : Int) + 1) * w = k * w + w := by ring
          omega
        · exact ⟨(mem_setAdd _).2 (.inl hs), hd⟩
      rw [hL.seen]
      exact hmem
    · left
      obtain ⟨l, hl, hlsrc⟩ := List.mem_map.1 hmem
      obtain ⟨j, hj, -, hlj⟩ := (h.mem_links hk.le hlinks).1 ((ord.mem_iter).1 hl)
      have hnode : ∃ i ≤ n, e.node = y i := by
        rcases hlj with rfl | rfl
        · exact ⟨j, hj.le, by rw [← hlsrc, h.src]⟩
        · exact ⟨j + 1, hj, by rw [← hlsrc, ← h.dst]; rfl⟩
      obtain ⟨i, hi, hei⟩ := hnode
      rw [hei] at himp' hmem
      obtain rfl := hsrc i hi ((himp i hi).1 himp') hmem
      cases e
      rw [NodeDist.mk.injEq]
      refine ⟨hei, ?_⟩
      push_cast
      exact hd

/-! ## Past the largest int -/

/-- A distance past the largest `int` comes out negative. -/
theorem toInt_of_ge {x : Int} (h : 2 ^ 31 ≤ x) (h' : x < 3 * 2 ^ 31) : toInt x = x - 2 ^ 32 := by
  have hsub : toInt x = toInt (x - 2 ^ 32) := by
    unfold toInt
    exact (Int.sub_bmod_right x (2 ^ 32)).symm
  rw [hsub]
  apply toInt_eq <;> omega

variable {m : ℕ}

/-- The state in which the last nodes have a negative cost, and the last one may wait. -/
structure Late (w : Int) (y : ℕ → Dpid) (up : ℕ → Link) (m : ℕ) (d : Int) (st : DijkstraState) :
    Prop where
  turnedBack : TurnedBack y up m st.nexthoplinks
  cost₂ : st.cost.get (y (m + 2)) = some d
  cost₃ : st.cost.get (y (m + 3)) = some d
  origin : ∀ e ∈ st.nodeq, e.dist < MAX_PATH_WEIGHT ∧ (e.node ∈ st.seen ∨ e = ⟨y (m + 3), d⟩)

/-- The node before the last offers a negative distance to itself and to both its neighbours. -/
theorem Advanced.turn (h : Chain c linkCost w y up (m + 3)) (hA : Advanced w y up (m + 3) (m + 2) st)
    (hw : 0 < w) (hlt : ((m + 2 : ℕ) : Int) * w < MAX_PATH_WEIGHT) {d : Int} (hd : d < 0)
    {links : List Link} (hlinks : c.links.get (y (m + 2)) = some links)
    (hL : Lowered (ord.iter links) d
      { st with
        nodeq := st.nodeq.erase ⟨y (m + 2), (m + 2 : ℕ) * w⟩
        seen := setAdd st.seen (y (m + 2)) } st') :
    Late w y up m d st' := by
  have hk : m + 2 ≤ m + 3 := by omega
  have himp : ∀ j ≤ m + 3, st.Improves d (y j) := by
    intro j hj
    refine ⟨_, hA.cost j hj, ?_⟩
    split_ifs
    · have hle : 0 ≤ (j : Int) * w := Int.mul_nonneg (by omega) hw.le
      omega
    · have hpos : (0 : Int) < MAX_PATH_WEIGHT := by decide
      omega
  -- the offers reach the node itself and its neighbours
  have hmem : ∀ i < m + 3, m + 1 ≤ i → ∀ l, l = up i ∨ l = (up i).reverse → l ∈ ord.iter links :=
    fun i hi hmi l hl => (ord.mem_iter).2 ((h.mem_links hk hlinks).2 ⟨i, hi, by omega, hl⟩)
  have htaken : ∀ j, m + 1 ≤ j → j ≤ m + 3 → st'.cost.get (y j) = some d ∧
      (∃ l ∈ links, l.src = y j ∧ st'.nexthoplinks.get (y j) = some (some l)) := by
    intro j hmj hj
    have hlink : ∃ l ∈ ord.iter links, l.src = y j := by
      by_cases he : j = m + 3
      · subst he
        exact ⟨(up (m + 2)).reverse, hmem (m + 2) (by omega) (by omega) _ (.inr rfl), h.dst _⟩
      · exact ⟨up j, hmem j (by omega) hmj _ (.inl rfl), h.src j⟩
    obtain ⟨l, hl, hsrc⟩ := hlink
    obtain ⟨hc, ⟨l', hl', hsrc', hh⟩, -⟩ := hL.taken l hl (by rw [hsrc]; exact himp j hj)
    rw [hsrc] at hc hsrc' hh
    exact ⟨hc, l', (ord.mem_iter).1 hl', hsrc', hh⟩
  have hkept : ∀ j ≤ m, st'.nexthoplinks.get (y j) = st.nexthoplinks.get (y j) := by
    intro j hj
    refine (hL.kept (y j) (.inl fun hsrc => ?_)).2
    obtain ⟨l, hl, hlsrc⟩ := List.mem_map.1 hsrc
    rcases h.link_of_src hk hlinks ((ord.mem_iter).1 hl) (by omega) hlsrc with ⟨-, -, he⟩ | ⟨i, rfl, -, he⟩
    · omega
    · omega
  constructor
  · constructor
    · rw [hkept 0 (Nat.zero_le m)]
      exact hA.rootHop
    · intro j hj
      rw [hkept (j + 1) hj]
      exact hA.hop j (by omega)
    · obtain ⟨-, l, hl, hsrc, hh⟩ := htaken (m + 1) (by omega) (by omega)
      rw [hh]
      rcases h.link_of_src hk hlinks hl (by omega) hsrc with ⟨rfl, -⟩ | ⟨i, hi, -, he⟩
      · rfl
      · omega
    · obtain ⟨-, l, hl, hsrc, hh⟩ := htaken (m + 2) (by omega) (by omega)
      rw [hh]
      rcases h.link_of_src hk hlinks hl (by omega) hsrc with ⟨rfl, -⟩ | ⟨i, hi, rfl, -⟩
      · exact .inr rfl
      · obtain rfl : i = m + 1 := by omega
        exact .inl rfl
    · obtain ⟨-, l, hl, hsrc, hh⟩ := htaken (m + 3) (by omega) (by omega)
      rw [hh]
      rcases h.link_of_src hk hlinks hl (by omega) hsrc with ⟨-, hlt, -⟩ | ⟨i, hi, rfl, -⟩
      · omega
      · obtain rfl : i = m + 2 := by omega
        rfl
  · exact (htaken (m + 2) (by omega) (by omega)).1
  · exact (htaken (m + 3) (by omega) (by omega)).1
  · intro e he
    rw [hL.seen]
    show _ ∧ (e.node ∈ setAdd st.seen (y (m + 2)) ∨ _)
    rw [mem_setAdd]
    have hpos : (0 : Int) < MAX_PATH_WEIGHT := by decide
    rcases hL.origin e he with he | ⟨hed, hsrc, -⟩
    · rcases hA.origin e (List.mem_of_mem_erase he) with rfl | ⟨hs, hlt⟩
      · exact ⟨hlt, .inl (.inr rfl)⟩
      · exact ⟨hlt, .inl (.inl hs)⟩
    · obtain ⟨l, hl, hlsrc⟩ := List.mem_map.1 hsrc
      refine ⟨by omega, ?_⟩
      obtain ⟨i, hi, hik, hli⟩ := (h.mem_links hk hlinks).1 ((ord.mem_iter).1 hl)
      have hnode : ∃ j ≤ m + 3, m + 1 ≤ j ∧ e.node = y j := by
        rcases hli with rfl | rfl
        · exact ⟨i, hi.le, by omega, by rw [← hlsrc, h.src]⟩
        · exact ⟨i + 1, hi, by omega, by rw [← hlsrc, ← h.dst]; rfl⟩
      obtain ⟨j, hj, hmj, hej⟩ := hnode
      by_cases hlast : j = m + 3
      · right
        cases e
        rw [NodeDist.mk.injEq, ← hlast]
        exact ⟨hej, hed⟩
      · left
        rw [hej, hA.seen j hj]
        by_cases hj₂ : j = m + 2
        · exact .inr (congrArg y hj₂)
        · exact .inl (by omega)

/-- The last node has nothing better to offer. -/
theorem Late.run (h : Chain c linkCost w y up (m + 3)) {d : Int} (hd : d ≤ toInt (d + w))
    (fuel : ℕ) : ∀ st, Late w y up m d st →
      TopologyInstance.dijkstraLoop ord queue c linkCost true fuel st = some st' →
      TurnedBack y up m st'.nexthoplinks := by
  induction fuel with
  | zero =>
    intro st _ hst
    cases hst
  | succ fuel ih =>
    intro st hS hst
    cases hp : queue.peek st.nodeq with
    | none =>
      unfold TopologyInstance.dijkstraLoop at hst
      rw [hp] at hst
      obtain rfl := Option.some.inj hst
      exact hS.turnedBack
    | some e =>
      obtain ⟨hlt, horigin⟩ := hS.origin e (NodeQueue.mem_of_peek hp)
      rcases dijkstraLoop_round hp hlt hst with ⟨-, hst⟩ | ⟨hseen, links, st₁, hlinks, hr, hst⟩
      · have hS' : Late w y up m d { st with nodeq := st.nodeq.erase e } :=
          ⟨hS.turnedBack, hS.cost₂, hS.cost₃, fun e' he' => hS.origin e' (List.mem_of_mem_erase he')⟩
        exact ih _ hS' hst
      · obtain rfl := horigin.resolve_left hseen
        have hL := h.lowered hlinks hr
        dsimp only at hL hlinks
        -- the links at the last node come from it and the node before
        have hno : ∀ v ∈ (ord.iter links).map Link.src, ¬st.Improves (toInt (d + w)) v := by
          rintro v hv ⟨x, hx, hlt'⟩
          obtain ⟨l, hl, rfl⟩ := List.mem_map.1 hv
          obtain ⟨i, hi, hik, hli⟩ := (h.mem_links le_rfl hlinks).1 ((ord.mem_iter).1 hl)
          obtain rfl : i = m + 2 := by omega
          have hcost : st.cost.get l.src = some d := by
            rcases hli with rfl | rfl
            · rw [h.src]
              exact hS.cost₂
            · show st.cost.get (up (m + 2)).dst = some d
              rw [h.dst]
              exact hS.cost₃
          obtain rfl := Option.some.inj (hcost.symm.trans hx)
          omega
        have hkept : ∀ v, st₁.cost.get v = st.cost.get v ∧
            st₁.nexthoplinks.get v = st.nexthoplinks.get v := by
          intro v
          refine hL.kept v ?_
          by_cases hv : v ∈ (ord.iter links).map Link.src
          · exact .inr (hno v hv)
          · exact .inl hv
        refine ih st₁ ⟨?_, ?_, ?_, ?_⟩ hst
        · obtain ⟨h₀, h₁, h₂, h₃, h₄⟩ := hS.turnedBack
          constructor
          · rw [(hkept _).2, h₀]
          · intro j hj
            rw [(hkept _).2, h₁ j hj]
          · rw [(hkept _).2, h₂]
          · rw [(hkept _).2]
            exact h₃
          · rw [(hkept _).2, h₄]
        · rw [(hkept _).1, hS.cost₂]
        · rw [(hkept _).1, hS.cost₃]
        · intro e he
          rcases hL.origin e he with he | ⟨-, hmem, himp⟩
          · obtain ⟨hlt', horigin'⟩ := hS.origin e (List.mem_of_mem_erase he)
            refine ⟨hlt', horigin'.imp_left fun hs => ?_⟩
            rw [hL.seen]
            exact (mem_setAdd _).2 (.inl hs)
          · exact absurd himp (hno _ hmem)

/-- The nodes are entered one after the other until the distance overflows. -/
theorem Advanced.run (h : Chain c linkCost w y up (m + 3)) (hw : 0 < w)
    (hlt : ((m + 2 : ℕ) : Int) * w < MAX_PATH_WEIGHT) (hge : 2 ^ 31 ≤ ((m + 3 : ℕ) : Int) * w)
    (fuel : ℕ) : ∀ k st, k ≤ m + 2 → Advanced w y up (m + 3) k st →
      TopologyInstance.dijkstraLoop ord queue c linkCost true fuel st = some st' →
      TurnedBack y up m st'.nexthoplinks := by
  have hmul : ∀ {j k : ℕ}, j ≤ k → (j : Int) * w ≤ k * w := by
    intro j k hjk
    apply Int.mul_le_mul_of_nonneg_right _ hw.le
    omega
  have hsucc : ∀ k : ℕ, (k : Int) * w + w = ((k : Int) + 1) * w := by
    intro k
    ring
  induction fuel with
  | zero =>
    intro k st _ _ hst
    cases hst
  | succ fuel ih =>
    intro k st hk hA hst
    have hkm : (k : Int) * w ≤ ((m + 2 : ℕ) : Int) * w := hmul hk
    cases hp : queue.peek st.nodeq with
    | none =>
      obtain ⟨e, -, he⟩ := queue.peek_mem st.nodeq (List.ne_nil_of_mem hA.queued)
      rw [hp] at he
      cases he
    | some e =>
      have hed : e.dist < MAX_PATH_WEIGHT := by
        rcases hA.origin e (NodeQueue.mem_of_peek hp) with rfl | ⟨-, hd⟩
        · show (k : Int) * w < _
          omega
        · exact hd
      rcases dijkstraLoop_round hp hed hst with ⟨hseen, hst⟩ | ⟨hseen, links, st₁, hlinks, hr, hst⟩
      · have hne : (⟨y k, k * w⟩ : NodeDist) ≠ e := by
          rintro rfl
          exact lt_irrefl k ((hA.seen k (by omega)).1 hseen)
        have hA' : Advanced w y up (m + 3) k { st with nodeq := st.nodeq.erase e } :=
          ⟨hA.cost, hA.rootHop, hA.hop, hA.seen, (List.mem_erase_of_ne hne).2 hA.queued,
            fun e' he' => hA.origin e' (List.mem_of_mem_erase he')⟩
        exact ih k _ hk hA' hst
      · obtain rfl := (hA.origin e (NodeQueue.mem_of_peek hp)).resolve_right fun h => hseen h.1
        have hL := h.lowered hlinks hr
        dsimp only at hL hlinks
        rw [hsucc] at hL
        have hnonneg : 0 ≤ (k : Int) * w := Int.mul_nonneg (by omega) hw.le
        by_cases hlast : k = m + 2
        · subst hlast
          -- twice the weight is no more than the distance of the node
          have htwo : 2 * w ≤ ((m + 2 : ℕ) : Int) * w := hmul (j := 2) (by omega)
          have hstep := hsucc (m + 2)
          have hge' : ((m + 3 : ℕ) : Int) * w = (((m + 2 : ℕ) : Int) + 1) * w := by
            push_cast
            ring
          have hmax : MAX_PATH_WEIGHT < 2 ^ 31 := by decide
          rw [toInt_of_ge (by omega) (by omega)] at hL
          refine Late.run h ?_ fuel st₁ (hA.turn h hw hlt (by omega) hlinks hL) hst
          rw [toInt_eq (by omega) (by omega)]
          omega
        · have hnext : (((k + 1 : ℕ)) : Int) * w ≤ ((m + 2 : ℕ) : Int) * w := hmul (by omega)
          push_cast at hnext hlt
          have hmax : MAX_PATH_WEIGHT < 2 ^ 31 := by decide
          have hstep := hsucc k
          rw [toInt_eq (by omega) (by omega)] at hL
          exact ih (k + 1) st₁ (by omega)
            (hA.enter h (by omega) hw (by omega) hlinks hL) hst

/-- **In a chain whose longest distance exceeds an `int` the next hops of the last nodes lead round
in a circle.** -/
theorem Chain.turnedBack (h : Chain c linkCost w y up (m + 3)) (hw : 0 < w)
    (hlt : ((m + 2 : ℕ) : Int) * w < MAX_PATH_WEIGHT) (hge : 2 ^ 31 ≤ ((m + 3 : ℕ) : Int) * w)
    {tree : BroadcastTree}
    (htree : TopologyInstance.dijkstra ord queue c linkCost true (y 0) = some tree) :
    TurnedBack y up m tree.links := by
  unfold TopologyInstance.dijkstra at htree
  obtain ⟨st, hst, he⟩ := Option.bind_eq_some_iff.1 htree
  obtain rfl := Option.some.inj he
  refine Advanced.run h hw hlt hge _ 0 _ (Nat.zero_le _) ⟨?_, ?_, ?_, ?_, ?_, ?_⟩ hst
  · intro j hj
    rw [TopologyInstance.get_dijkstraInit_cost, if_pos (h.mem j hj)]
    by_cases hj₀ : j = 0
    · subst hj₀
      simp
    · have hne : y j ≠ y 0 := fun he => hj₀ (h.inj j 0 hj (Nat.zero_le _) he)
      rw [if_neg hne, if_neg (by omega)]
  · show HashMap.get (List.foldl _ _ _) (y 0) = _
    have hmem : y 0 ∈ ord.iter c.links.keySet := (ord.mem_iter).2 (h.mem 0 (Nat.zero_le _))
    rw [HashMap.get_foldl_put, if_pos hmem]
  · intro j hj
    omega
  · intro j _
    show y j ∈ [] ↔ j < 0
    simp
  · show _ ∈ [_]
    simp
  · intro e he
    left
    rw [List.mem_singleton.1 he]
    simp

end Chain

/-- No next hop is the link before the circle. -/
theorem TurnedBack.link_ne {y : ℕ → Dpid} {up : ℕ → Link} {m : ℕ} {tree : BroadcastTree}
    (hT : TurnedBack y up m tree.links) {i : ℕ} (hi : i ≤ m + 3) {l : Link}
    (hl : tree.getTreeLink (y i) = some l) : ∃ j < m + 3, j ≠ m ∧ (l = up j ∨ l = (up j).reverse) := by
  have hget : ∀ {l'}, tree.links.get (y i) = some (some l') → l = l' := by
    intro l' hl'
    rw [getTreeLink_eq_some.2 hl'] at hl
    exact (Option.some.inj hl).symm
  obtain h | h | h | h | h : i = 0 ∨ (0 < i ∧ i ≤ m) ∨ i = m + 1 ∨ i = m + 2 ∨ i = m + 3 := by
    omega
  · rw [getTreeLink_eq_some, h, hT.rootHop] at hl
    cases hl
  · obtain ⟨j, rfl⟩ : ∃ j, i = j + 1 := ⟨i - 1, by omega⟩
    exact ⟨j, by omega, by omega, .inr (hget (hT.hop j h.2))⟩
  · subst h
    exact ⟨m + 1, by omega, by omega, .inl (hget hT.first)⟩
  · subst h
    rcases hT.second with hs | hs
    · exact ⟨m + 1, by omega, by omega, .inr (hget hs)⟩
    · exact ⟨m + 2, by omega, by omega, .inl (hget hs)⟩
  · subst h
    exact ⟨m + 2, by omega, by omega, .inr (hget hT.last)⟩

/-! ## A chain of tunnels -/

def chainNode (k : ℕ) : Dpid := Int64.ofNat k

/-- The link from port 2 of a switch to port 1 of the next. -/
def chainLink (k : ℕ) : Link := ⟨chainNode k, 2, chainNode (k + 1), 1⟩

def chainLinks (n : ℕ) : List Link := (List.range n).flatMap fun k => [chainLink k, (chainLink k).reverse]

/-- A chain of `n` links in both directions whose ports are all tunnel ports. -/
def tunnelChain (n : ℕ) : TopologyInstance := .ofLinks (chainLinks n) ((chainLinks n).map Link.srcNpt)

theorem mem_chainLinks {n : ℕ} {l : Link} :
    l ∈ chainLinks n ↔ ∃ k < n, l = chainLink k ∨ l = (chainLink k).reverse := by
  unfold chainLinks
  simp only [List.mem_flatMap, List.mem_range, List.mem_cons, List.not_mem_nil, or_false]

theorem chainNode_inj {j k : ℕ} (hj : j < 2 ^ 63) (hk : k < 2 ^ 63)
    (h : chainNode j = chainNode k) : j = k := by
  have hint := congrArg Int64.toInt h
  unfold chainNode at hint
  rw [Int64.toInt_ofNat_of_lt hj, Int64.toInt_ofNat_of_lt hk] at hint
  exact Int.ofNat.inj hint

theorem mem_switches_tunnelChain {n : ℕ} (hn : 0 < n) {v : Dpid} :
    v ∈ (tunnelChain n).switches ↔ ∃ k ≤ n, v = chainNode k := by
  unfold tunnelChain
  rw [TopologyInstance.mem_switches_ofLinks]
  constructor
  · rintro ⟨l, hl, hv⟩
    obtain ⟨k, hk, rfl | rfl⟩ := mem_chainLinks.1 hl
    · rcases Link.mem_endSwitches.1 hv with rfl | rfl
      · exact ⟨k, hk.le, rfl⟩
      · exact ⟨k + 1, hk, rfl⟩
    · rcases Link.mem_endSwitches.1 hv with rfl | rfl
      · exact ⟨k + 1, hk, rfl⟩
      · exact ⟨k, hk.le, rfl⟩
  · rintro ⟨k, hk, rfl⟩
    by_cases hkn : k = n
    · refine ⟨chainLink (n - 1), mem_chainLinks.2 ⟨n - 1, by omega, .inl rfl⟩, ?_⟩
      rw [Link.mem_endSwitches]
      right
      show chainNode k = chainNode (n - 1 + 1)
      rw [hkn, Nat.sub_add_cancel hn]
    · exact ⟨chainLink k, mem_chainLinks.2 ⟨k, by omega, .inl rfl⟩,
        Link.mem_endSwitches.2 (.inl rfl)⟩

theorem length_switches_tunnelChain {n : ℕ} (hn : 0 < n) (hlt : n < 2 ^ 63) :
    (tunnelChain n).switchPorts.keySet.length = n + 1 := by
  have hnodup : ((List.range (n + 1)).map chainNode).Nodup := by
    refine List.Nodup.map_on ?_ List.nodup_range
    intro j hj k hk he
    rw [List.mem_range] at hj hk
    exact chainNode_inj (by omega) (by omega) he
  have hperm : (tunnelChain n).switchPorts.keySet.Perm ((List.range (n + 1)).map chainNode) := by
    rw [List.perm_ext_iff_of_nodup (HashMap.nodup_keySet _) hnodup]
    intro v
    have hmem := mem_switches_tunnelChain hn (v := v)
    change v ∈ (tunnelChain n).switchPorts.keySet ↔ _ at hmem
    rw [hmem, List.mem_map]
    constructor
    · rintro ⟨k, hk, rfl⟩
      exact ⟨k, List.mem_range.2 (by omega), rfl⟩
    · rintro ⟨k, hk, rfl⟩
      exact ⟨k, by rw [List.mem_range] at hk; omega, rfl⟩
  rw [hperm.length_eq, List.length_map, List.length_range]

theorem isEdge_tunnelChain {n : ℕ} {l : Link} :
    (tunnelChain n).domainGraph.IsEdge l ↔ ∃ k < n, l = chainLink k ∨ l = (chainLink k).reverse := by
  unfold tunnelChain
  rw [TopologyInstance.isEdge_ofLinks, mem_chainLinks]

namespace TopologyInstance

section TunnelChain

variable {ord : HashOrder} {queue : NodeQueue} {t : TopologyInstance} {n : ℕ}

theorem mutual_tunnelChain {k : ℕ} (hk : k ≤ n) :
    (tunnelChain n).domainGraph.Mutual (chainNode 0) (chainNode k) := by
  induction k with
  | zero => exact .refl _
  | succ k ih =>
    have hup := Multigraph.Reaches.edge (isEdge_tunnelChain.2 ⟨k, hk, .inl rfl⟩)
    have hdown := Multigraph.Reaches.edge (isEdge_tunnelChain.2 ⟨k, hk, .inr rfl⟩)
    exact (ih (by omega)).trans ⟨hup, hdown⟩

/-- The cluster of the chain. -/
theorem Computed.exists_chain (hC : Computed ord queue (tunnelChain n) t) (hn : 0 < n)
    (hlt : n < 2 ^ 31 - 2) :
    ∃ c ∈ t.clusters, Chain c (some (t.tunnelLinkCost ord)) (n + 2) chainNode chainLink n ∧
      c.id = chainNode 0 := by
  have hrev : ∀ l, (tunnelChain n).domainGraph.IsEdge l → ∃ l',
      (tunnelChain n).domainGraph.IsEdge l' ∧ l'.src = l.dst ∧ l'.dst = l.src := by
    intro l hl
    obtain ⟨k, hk, rfl | rfl⟩ := isEdge_tunnelChain.1 hl
    · exact ⟨_, isEdge_tunnelChain.2 ⟨k, hk, .inr rfl⟩, rfl, rfl⟩
    · exact ⟨_, isEdge_tunnelChain.2 ⟨k, hk, .inl rfl⟩, rfl, rfl⟩
  have hcomp := hC.components_of_reverse indexed_ofLinks new_ofLinks hrev
  have hsw : ∀ k ≤ n, chainNode k ∈ (tunnelChain n).switches :=
    fun k hk => (mem_switches_tunnelChain hn).2 ⟨k, hk, rfl⟩
  obtain ⟨i, c, hi, hci, -⟩ := hC.filled.domains.exists_cluster (s := chainNode 0)
    (by rw [hC.switches]; exact hsw 0 (Nat.zero_le n))
  have hc : c ∈ t.clusters := List.mem_of_getElem? hci
  have hmem : ∀ k ≤ n, chainNode k ∈ c.getNodes := by
    intro k hk
    refine (hC.filled.domains.mem_iff i c hci _).2 ?_
    exact ((hcomp _ (hsw 0 (Nat.zero_le n)) _ (hsw k hk)).2 (mutual_tunnelChain hk)).symm.trans hi
  have hlink : ∀ l, c.HasLink l ↔ ∃ k < n, l = chainLink k ∨ l = (chainLink k).reverse := by
    intro l
    rw [hC.hasLink_iff indexed_ofLinks hc, isEdge_tunnelChain]
    constructor
    · exact fun h => h.1
    · intro h
      refine ⟨h, ?_⟩
      obtain ⟨k, hk, rfl | rfl⟩ := h
      · exact ⟨hmem k hk.le, hmem (k + 1) hk⟩
      · exact ⟨hmem (k + 1) hk, hmem k hk.le⟩
  refine ⟨c, hc, ⟨hC.filled.wellFormed hc, ?_, fun _ => rfl, fun _ => rfl, hmem, hlink, ?_⟩, ?_⟩
  · intro j k hj hk he
    exact chainNode_inj (by omega) (by omega) he
  · intro l hl
    have hmeml : l ∈ chainLinks n := mem_chainLinks.2 ((hlink l).1 hl)
    have htunnel : l.srcNpt ∈ t.tunnelPorts := by
      rw [hC.tunnelPorts]
      exact List.mem_map_of_mem hmeml
    have hhas : t.switchPortLinks.Has l.srcNpt l := by
      rw [hC.switchPortLinks]
      exact has_ofLinks.2 ⟨hmeml, by simp⟩
    rw [weight_tunnelLinkCost ord htunnel hhas, hC.switchPorts,
      length_switches_tunnelChain hn (by omega)]
    push_cast
    rw [toInt_eq (by omega) (by omega)]
    ring
  · -- no switch has a lower id
    have hid := hC.filled.domains.id_mem hc
    have hle := (hC.filled.domains.lowestId c hc).le _ (hmem 0 (Nat.zero_le n))
    have hknown := hC.filled.mem_switches hc hid
    rw [hC.switches] at hknown
    obtain ⟨k, hk, he⟩ := (mem_switches_tunnelChain hn).1 hknown
    rw [he, Int64.le_iff_toInt_le] at hle
    unfold chainNode at hle
    rw [Int64.toInt_ofNat_of_lt (by omega), Int64.toInt_ofNat_of_lt (by omega)] at hle
    rw [he]
    apply congrArg
    omega

end TunnelChain

end TopologyInstance

end Torpedo
