import Torpedo.Topology.Computed
import Torpedo.Util.Walks

/-!
# Runs of dijkstra

What holds in every state of a run of `dijkstra` towards a root, whichever entry the queue yields:
the nodes are entered at the length of some simple path, a node costs the least that the entered
nodes have offered it, and the next hop is the link of that offer. Nothing overflows as long as a
link costs at most `MAX_LINK_WEIGHT`.
-/

namespace Torpedo

namespace Cluster

/-- The graph of the links of the cluster. -/
def graph (c : Cluster) : Multigraph Dpid Link := ⟨Link.src, Link.dst, c.HasLink⟩

@[simp] theorem graph_src (c : Cluster) (l : Link) : c.graph.src l = l.src := rfl

@[simp] theorem graph_dst (c : Cluster) (l : Link) : c.graph.dst l = l.dst := rfl

@[simp] theorem graph_isEdge (c : Cluster) (l : Link) : c.graph.IsEdge l ↔ c.HasLink l := .rfl

/-- Link costs are positive and at most `MAX_LINK_WEIGHT`. -/
def CostsBounded (c : Cluster) (linkCost : Option (HashMap Link Int)) : Prop :=
  ∀ l, c.HasLink l → 0 < weight linkCost l ∧ weight linkCost l ≤ MAX_LINK_WEIGHT

/-- The sums of the link costs on the loop-free paths to `root` stay below `MAX_PATH_WEIGHT`. -/
def SumsBounded (c : Cluster) (linkCost : Option (HashMap Link Int)) (root : Dpid) : Prop :=
  ∀ v es, c.graph.Walk v root es → c.graph.Simple es root →
    Multigraph.cost (weight linkCost) es < MAX_PATH_WEIGHT

end Cluster

/-! ## Link costs of an instance -/

namespace TopologyInstance

variable {ord : HashOrder} {t : TopologyInstance} {l : Link}

theorem get_foldl_tunnelLinkCost (ord : HashOrder) (t : TopologyInstance) (l : Link)
    (npts : List NodePortTuple) (m : HashMap Link Int) :
    ((∃ npt ∈ npts, t.switchPortLinks.Has npt l) ∧
      (npts.foldl (fun m npt =>
        match t.switchPortLinks.get npt with
        | none => m
        | some links => (ord.iter links).foldl
            (HashMap.put · · (toInt (t.switchPorts.keySet.length + 1))) m) m).get l =
        some (toInt (t.switchPorts.keySet.length + 1))) ∨
    ((∀ npt ∈ npts, ¬t.switchPortLinks.Has npt l) ∧
      (npts.foldl (fun m npt =>
        match t.switchPortLinks.get npt with
        | none => m
        | some links => (ord.iter links).foldl
            (HashMap.put · · (toInt (t.switchPorts.keySet.length + 1))) m) m).get l = m.get l) := by
  induction npts generalizing m with
  | nil => exact .inr ⟨by simp, rfl⟩
  | cons npt npts ih =>
    rw [List.foldl_cons]
    cases hlinks : t.switchPortLinks.get npt with
    | none =>
      rcases ih m with ⟨⟨npt', hmem, hhas⟩, hget⟩ | ⟨hno, hget⟩
      · exact .inl ⟨⟨npt', List.mem_cons_of_mem _ hmem, hhas⟩, hget⟩
      · refine .inr ⟨?_, hget⟩
        intro npt' hmem
        rcases List.mem_cons.1 hmem with rfl | hmem
        · rintro ⟨links, hlinks', -⟩
          rw [hlinks] at hlinks'
          cases hlinks'
        · exact hno npt' hmem
    | some links =>
      dsimp only
      rcases ih ((ord.iter links).foldl (HashMap.put · · (toInt (t.switchPorts.keySet.length + 1))) m)
        with ⟨⟨npt', hmem, hhas⟩, hget⟩ | ⟨hno, hget⟩
      · exact .inl ⟨⟨npt', List.mem_cons_of_mem _ hmem, hhas⟩, hget⟩
      · rw [hget, HashMap.get_foldl_put]
        by_cases hl : l ∈ links
        · exact .inl ⟨⟨npt, List.mem_cons_self, links, hlinks, hl⟩, if_pos ((ord.mem_iter).2 hl)⟩
        · refine .inr ⟨?_, if_neg fun h => hl ((ord.mem_iter).1 h)⟩
          intro npt' hmem
          rcases List.mem_cons.1 hmem with rfl | hmem
          · rintro ⟨links', hlinks', hl'⟩
            obtain rfl := Option.some.inj (hlinks.symm.trans hlinks')
            exact hl hl'
          · exact hno npt' hmem

/-- A link at a tunnel port has the weight of a tunnel, other links are not in the map. -/
theorem get_tunnelLinkCost (ord : HashOrder) (t : TopologyInstance) (l : Link) :
    ((∃ npt ∈ t.tunnelPorts, t.switchPortLinks.Has npt l) ∧
      (t.tunnelLinkCost ord).get l = some (toInt (t.switchPorts.keySet.length + 1))) ∨
    ((∀ npt ∈ t.tunnelPorts, ¬t.switchPortLinks.Has npt l) ∧
      (t.tunnelLinkCost ord).get l = none) := by
  have h := get_foldl_tunnelLinkCost ord t l (ord.iter t.tunnelPorts) ∅
  simp only [HashOrder.mem_iter] at h
  exact h

theorem weight_tunnelLinkCost (ord : HashOrder) {npt : NodePortTuple} (hnpt : npt ∈ t.tunnelPorts)
    (hl : t.switchPortLinks.Has npt l) :
    weight (some (t.tunnelLinkCost ord)) l = toInt (t.switchPorts.keySet.length + 1) := by
  rcases get_tunnelLinkCost ord t l with ⟨-, hget⟩ | ⟨hno, -⟩
  · unfold weight
    dsimp only
    rw [hget]
  · exact absurd hl (hno npt hnpt)

/-- Link costs are small where the switches are few. -/
theorem weight_tunnelLinkCost_le (ord : HashOrder)
    (hlen : (t.switchPorts.keySet.length : Int) < MAX_LINK_WEIGHT) (l : Link) :
    0 < weight (some (t.tunnelLinkCost ord)) l ∧
      weight (some (t.tunnelLinkCost ord)) l ≤ MAX_LINK_WEIGHT := by
  have hmax : MAX_LINK_WEIGHT = 10000 := rfl
  unfold weight
  dsimp only
  rcases get_tunnelLinkCost ord t l with ⟨-, hget⟩ | ⟨-, hget⟩
  · rw [hget]
    dsimp only
    rw [toInt_eq (by omega) (by omega)]
    omega
  · rw [hget]
    decide

end TopologyInstance

/-! ## Offers -/

section Offers

variable (ord : HashOrder) (c : Cluster) (linkCost : Option (HashMap Link Int))

/-- The distances offered over the links of a node once it is entered. -/
def offersOf (n : NodeDist) : List (Link × Int) :=
  (ord.iter ((c.links.get n.node).getD [])).map fun l => (l, n.dist + weight linkCost l)

/-- The distances offered while the nodes of `L` are entered in this order. -/
def offers (L : List NodeDist) : List (Link × Int) := L.flatMap (offersOf ord c linkCost)

/-- The distance at which a node is first put into the queue: the first that it is offered, and
zero for the root. -/
def firstOffer (root : Dpid) (O : List (Link × Int)) (v : Dpid) : Option Int :=
  if v = root then some 0 else (O.find? fun o => o.1.src = v).map Prod.snd

end Offers

theorem firstOffer_append {root v : Dpid} {O : List (Link × Int)} {x : Int}
    (h : firstOffer root O v = some x) (O' : List (Link × Int)) :
    firstOffer root (O ++ O') v = some x := by
  unfold firstOffer at h ⊢
  split_ifs at h ⊢ with hv
  · exact h
  · obtain ⟨o, ho, rfl⟩ := Option.map_eq_some_iff.1 h
    rw [List.find?_append, ho]
    rfl

theorem firstOffer_append_of_ne {root v : Dpid} {O : List (Link × Int)} {o : Link × Int}
    (h : o.1.src ≠ v) : firstOffer root (O ++ [o]) v = firstOffer root O v := by
  unfold firstOffer
  have hd : decide (o.1.src = v) = false := decide_eq_false h
  simp only [List.find?_append, List.find?_singleton, hd, Bool.false_eq_true, if_false,
    Option.or_none]

theorem firstOffer_append_of_eq {root v : Dpid} {O : List (Link × Int)} {o : Link × Int}
    (hv : v ≠ root) (h : o.1.src = v) :
    firstOffer root (O ++ [o]) v = some ((firstOffer root O v).getD o.2) := by
  unfold firstOffer
  rw [if_neg hv, if_neg hv, List.find?_append, List.find?_singleton, if_pos (by simpa using h)]
  cases O.find? fun o => o.1.src = v <;> rfl

theorem exists_offer {root v : Dpid} {O : List (Link × Int)} {x : Int} (hv : v ≠ root)
    (h : firstOffer root O v = some x) : ∃ o ∈ O, o.1.src = v ∧ o.2 = x := by
  unfold firstOffer at h
  rw [if_neg hv] at h
  obtain ⟨o, ho, rfl⟩ := Option.map_eq_some_iff.1 h
  exact ⟨o, List.mem_of_find?_eq_some ho, by simpa using List.find?_some ho, rfl⟩

theorem firstOffer_isSome {root v : Dpid} {O : List (Link × Int)} {o : Link × Int} (ho : o ∈ O)
    (h : o.1.src = v) : ∃ x, firstOffer root O v = some x := by
  unfold firstOffer
  split_ifs
  · exact ⟨0, rfl⟩
  · have hs : (O.find? fun o => o.1.src = v).isSome := by
      rw [List.find?_isSome]
      exact ⟨o, ho, by simpa using h⟩
    obtain ⟨o', ho'⟩ := Option.isSome_iff_exists.1 hs
    exact ⟨o'.2, by rw [ho']; rfl⟩

theorem NodeQueue.mem_of_peek {queue : NodeQueue} {q : List NodeDist} {n : NodeDist}
    (h : queue.peek q = some n) : n ∈ q := by
  have hne : q ≠ [] := by
    rintro rfl
    rw [queue.peek_nil] at h
    cases h
  obtain ⟨n', hn', h'⟩ := queue.peek_mem q hne
  exact Option.some.inj (h.symm.trans h') ▸ hn'

/-! ## The invariant -/

/-- The state of a run towards `root` in which the nodes of `L` have been entered, in this order,
and the offers `O` have been made. -/
structure RunInv (c : Cluster) (linkCost : Option (HashMap Link Int)) (root : Dpid)
    (st : DijkstraState) (L : List NodeDist) (O : List (Link × Int)) : Prop where
  seen : st.seen = L.map NodeDist.node
  nodup : (L.map NodeDist.node).Nodup
  entered : ∀ n ∈ L, 0 ≤ n.dist ∧ n.dist < MAX_PATH_WEIGHT ∧
    ∃ x, st.cost.get n.node = some x ∧ x ≤ n.dist
  walk : ∀ n ∈ L, ∃ es, c.graph.Walk n.node root es ∧
    Multigraph.cost (weight linkCost) es = n.dist ∧ c.graph.Simple es root ∧
    ∀ v ∈ es.map Link.src ++ [root], v ∈ L.map NodeDist.node
  offered : ∀ o ∈ O, c.HasLink o.1
  rootCost : st.cost.get root = some 0
  rootHop : st.nexthoplinks.get root = some none
  hopNode : ∀ v l, st.nexthoplinks.get v = some (some l) → v ∈ c.getNodes
  /-- The cost of a node is the least offer, and its next hop the link of this offer. -/
  cost : ∀ v ∈ c.getNodes, v ≠ root → ∃ x, st.cost.get v = some x ∧ x ≤ MAX_PATH_WEIGHT ∧
    (∀ o ∈ O, o.1.src = v → x ≤ o.2) ∧
    (x = MAX_PATH_WEIGHT ∧ st.nexthoplinks.get v = some none ∨
      ∃ n ∈ L, ∃ l, (l, x) ∈ O ∧ l.src = v ∧ l.dst = n.node ∧ x = n.dist + weight linkCost l ∧
        st.nexthoplinks.get v = some (some l))
  queueRange : ∀ e ∈ st.nodeq, e.node ∈ c.getNodes ∧ 0 ≤ e.dist ∧ e.dist < MAX_PATH_WEIGHT ∧
    ∃ x, st.cost.get e.node = some x ∧ x ≤ e.dist
  queueOrigin : ∀ e ∈ st.nodeq, e = ⟨root, 0⟩ ∨ ∃ n ∈ L, ∃ l, c.HasLink l ∧ l.src = e.node ∧
    l.dst = n.node ∧ e.dist = n.dist + weight linkCost l
  /-- A node that has not been entered waits in the queue since its first offer. -/
  queued : ∀ v x, v ∉ st.seen → firstOffer root O v = some x → x < MAX_PATH_WEIGHT →
    ⟨v, x⟩ ∈ st.nodeq
  leFirstOffer : ∀ e ∈ st.nodeq, e.node ∉ st.seen →
    ∃ x, firstOffer root O e.node = some x ∧ e.dist ≤ x

section Run

variable {c : Cluster} {linkCost : Option (HashMap Link Int)} {root : Dpid} {st : DijkstraState}
  {L : List NodeDist} {O : List (Link × Int)}

/-- The sum of an entered distance and a link cost is an `int`. -/
theorem toInt_add_weight (hw : c.CostsBounded linkCost) {l : Link} (hl : c.HasLink l) {x : Int}
    (h₀ : 0 ≤ x) (h₁ : x < MAX_PATH_WEIGHT) : toInt (x + weight linkCost l) = x + weight linkCost l := by
  obtain ⟨hpos, hle⟩ := hw l hl
  refine toInt_eq ?_ ?_
  · omega
  · unfold MAX_PATH_WEIGHT at h₁
    omega

/-- An offer that changes nothing. -/
theorem RunInv.keep (hc : c.WellFormed) (h : RunInv c linkCost root st L O) {l : Link} (hl : c.HasLink l) {y x : Int}
    (hx : st.cost.get l.src = some x) (hle : x ≤ y) :
    RunInv c linkCost root st L (O ++ [(l, y)]) where
  seen := h.seen
  nodup := h.nodup
  entered := h.entered
  walk := h.walk
  offered o ho := by
    rcases List.mem_append.1 ho with ho | ho
    · exact h.offered o ho
    · rw [List.mem_singleton.1 ho]
      exact hl
  rootCost := h.rootCost
  rootHop := h.rootHop
  hopNode := h.hopNode
  cost v hv hne := by
    obtain ⟨z, hz, hmax, hall, hex⟩ := h.cost v hv hne
    refine ⟨z, hz, hmax, ?_, ?_⟩
    · intro o ho hsrc
      rcases List.mem_append.1 ho with ho | ho
      · exact hall o ho hsrc
      · rw [List.mem_singleton.1 ho] at hsrc ⊢
        obtain rfl : z = x := by
          rw [← hsrc, hx] at hz
          exact (Option.some.inj hz).symm
        exact hle
    · rcases hex with hex | ⟨n, hn, l', hl', hrest⟩
      · exact .inl hex
      · exact .inr ⟨n, hn, l', List.mem_append_left _ hl', hrest⟩
  queueRange := h.queueRange
  queueOrigin := h.queueOrigin
  queued v z hv hz hlt := by
    by_cases hsrc : l.src = v
    · by_cases hroot : v = root
      · refine h.queued v z hv ?_ hlt
        unfold firstOffer at hz ⊢
        rw [if_pos hroot] at hz ⊢
        exact hz
      · rw [firstOffer_append_of_eq hroot hsrc] at hz
        cases hf : firstOffer root O v with
        | some z' =>
          rw [hf] at hz
          exact h.queued v z hv (hf.trans hz) hlt
        | none =>
          -- a first offer below the maximal path weight would have been taken
          rw [hf] at hz
          obtain rfl : y = z := Option.some.inj hz
          have hnode : v ∈ c.getNodes := hsrc ▸ hc.src_mem hl
          obtain ⟨z', hz', -, -, hex⟩ := h.cost v hnode hroot
          rw [hsrc, hz'] at hx
          obtain rfl := Option.some.inj hx
          rcases hex with ⟨rfl, -⟩ | ⟨n, hn, l', hl', hsrc', -⟩
          · omega
          · obtain ⟨x', hx'⟩ : ∃ x', firstOffer root O v = some x' := firstOffer_isSome hl' hsrc'
            rw [hf] at hx'
            cases hx'
    · rw [firstOffer_append_of_ne hsrc] at hz
      exact h.queued v z hv hz hlt
  leFirstOffer e he hv := by
    obtain ⟨z, hz, hle'⟩ := h.leFirstOffer e he hv
    exact ⟨z, firstOffer_append hz _, hle'⟩

/-- An offer below the cost of its node. -/
theorem RunInv.take (hc : c.WellFormed) (hw : c.CostsBounded linkCost)
    (h : RunInv c linkCost root st L O) {n : NodeDist} (hn : n ∈ L) {l : Link} (hl : c.HasLink l)
    (hend : n.node ∈ l.endSwitches) {x : Int} (hx : st.cost.get l.src = some x)
    (hlt : n.dist + weight linkCost l < x) :
    RunInv c linkCost root
      ⟨st.nexthoplinks.put l.src (some l), st.cost.put l.src (n.dist + weight linkCost l), st.seen,
        st.nodeq ++ [⟨l.src, n.dist + weight linkCost l⟩]⟩
      L (O ++ [(l, n.dist + weight linkCost l)]) := by
  obtain ⟨hpos, -⟩ := hw l hl
  obtain ⟨h₀, -, z, hz, hzn⟩ := h.entered n hn
  have hroot : l.src ≠ root := by
    intro e
    rw [e, h.rootCost] at hx
    have := Option.some.inj hx
    omega
  -- a link out of the node itself never offers it a lower distance
  have hdst : l.dst = n.node := by
    rcases Link.mem_endSwitches.1 hend with e | e
    · rw [← e, hz] at hx
      have := Option.some.inj hx
      omega
    · exact e.symm
  have hsrcNode : l.src ∈ c.getNodes := hc.src_mem hl
  have hmax : x ≤ MAX_PATH_WEIGHT := by
    obtain ⟨x', hx', hle, -⟩ := h.cost l.src hsrcNode hroot
    rw [hx] at hx'
    exact Option.some.inj hx' ▸ hle
  -- costs only go down
  have hdown : ∀ v y, (∃ x', st.cost.get v = some x' ∧ x' ≤ y) →
      ∃ x', (st.cost.put l.src (n.dist + weight linkCost l)).get v = some x' ∧ x' ≤ y := by
    rintro v y ⟨x', hx', hle⟩
    rw [HashMap.get_put]
    split_ifs with hv
    · subst hv
      rw [hx] at hx'
      have := Option.some.inj hx'
      exact ⟨_, rfl, by omega⟩
    · exact ⟨x', hx', hle⟩
  refine ⟨h.seen, h.nodup, ?_, h.walk, ?_, ?_, ?_, ?_, ?_, ?_, ?_, ?_, ?_⟩
  · intro n' hn'
    obtain ⟨ha, hb, hcost⟩ := h.entered n' hn'
    exact ⟨ha, hb, hdown _ _ hcost⟩
  · intro o ho
    rcases List.mem_append.1 ho with ho | ho
    · exact h.offered o ho
    · rw [List.mem_singleton.1 ho]
      exact hl
  · exact (HashMap.get_put _ _ _ _).trans ((if_neg hroot.symm).trans h.rootCost)
  · exact (HashMap.get_put _ _ _ _).trans ((if_neg hroot.symm).trans h.rootHop)
  · intro v l' hl'
    dsimp only at hl'
    rw [HashMap.get_put] at hl'
    split_ifs at hl' with hv
    · rw [hv]
      exact hsrcNode
    · exact h.hopNode v l' hl'
  · intro v hv hne
    obtain ⟨y, hy, hymax, hall, hex⟩ := h.cost v hv hne
    by_cases he : v = l.src
    · subst he
      obtain rfl : y = x := Option.some.inj (hy.symm.trans hx)
      refine ⟨_, HashMap.get_put_self _ _ _, by omega, ?_, .inr ⟨n, hn, l, ?_, rfl, hdst, rfl, ?_⟩⟩
      · intro o ho hsrc
        rcases List.mem_append.1 ho with ho | ho
        · have := hall o ho hsrc
          omega
        · rw [List.mem_singleton.1 ho]
      · exact List.mem_append_right _ List.mem_cons_self
      · exact HashMap.get_put_self _ _ _
    · refine ⟨y, (HashMap.get_put _ _ _ _).trans ((if_neg he).trans hy), hymax, ?_, ?_⟩
      · intro o ho hsrc
        rcases List.mem_append.1 ho with ho | ho
        · exact hall o ho hsrc
        · rw [List.mem_singleton.1 ho] at hsrc
          exact absurd hsrc.symm he
      · have hhop : (st.nexthoplinks.put l.src (some l)).get v = st.nexthoplinks.get v :=
          (HashMap.get_put _ _ _ _).trans (if_neg he)
        dsimp only
        rw [hhop]
        rcases hex with hex | ⟨n', hn', l', hl', hrest⟩
        · exact .inl hex
        · exact .inr ⟨n', hn', l', List.mem_append_left _ hl', hrest⟩
  · intro e he
    rcases List.mem_append.1 he with he | he
    · obtain ⟨ha, hb, hb', hcost⟩ := h.queueRange e he
      exact ⟨ha, hb, hb', hdown _ _ hcost⟩
    · rw [List.mem_singleton.1 he]
      exact ⟨hsrcNode, by dsimp only; omega, by dsimp only; omega,
        _, HashMap.get_put_self _ _ _, le_rfl⟩
  · intro e he
    rcases List.mem_append.1 he with he | he
    · exact h.queueOrigin e he
    · rw [List.mem_singleton.1 he]
      exact .inr ⟨n, hn, l, hl, rfl, hdst, rfl⟩
  · intro v z' hv hz' hlt'
    by_cases hsrc : l.src = v
    · rw [firstOffer_append_of_eq (fun e => hroot (hsrc.trans e)) hsrc] at hz'
      cases hf : firstOffer root O v with
      | some z'' =>
        rw [hf] at hz'
        exact List.mem_append_left _ (h.queued v z' hv (hf.trans hz') hlt')
      | none =>
        rw [hf] at hz'
        obtain rfl := Option.some.inj hz'
        rw [← hsrc]
        exact List.mem_append_right _ List.mem_cons_self
    · rw [firstOffer_append_of_ne hsrc] at hz'
      exact List.mem_append_left _ (h.queued v z' hv hz' hlt')
  · intro e he hv
    rcases List.mem_append.1 he with he | he
    · obtain ⟨y, hy, hle⟩ := h.leFirstOffer e he hv
      exact ⟨y, firstOffer_append hy _, hle⟩
    · rw [List.mem_singleton.1 he]
      refine ⟨_, firstOffer_append_of_eq hroot rfl, ?_⟩
      cases hf : firstOffer root O l.src with
      | none => exact le_rfl
      | some y =>
        obtain ⟨o, ho, hsrc, hy⟩ := exists_offer hroot hf
        obtain ⟨x', hx', -, hall, -⟩ := h.cost l.src hsrcNode hroot
        obtain rfl : x' = x := Option.some.inj (hx'.symm.trans hx)
        have := hall o ho hsrc
        show n.dist + weight linkCost l ≤ y
        omega

theorem RunInv.relax (hc : c.WellFormed) (hw : c.CostsBounded linkCost)
    (h : RunInv c linkCost root st L O) {n : NodeDist} (hn : n ∈ L) {l : Link} (hl : c.HasLink l)
    (hend : n.node ∈ l.endSwitches) :
    ∃ st', st.relax linkCost true n.dist l = some st' ∧
      RunInv c linkCost root st' L (O ++ [(l, n.dist + weight linkCost l)]) := by
  obtain ⟨h₀, h₁, -⟩ := h.entered n hn
  have hcost : ∃ x, st.cost.get l.src = some x := by
    by_cases hroot : l.src = root
    · exact ⟨0, hroot ▸ h.rootCost⟩
    · obtain ⟨x, hx, -⟩ := h.cost l.src (hc.src_mem hl) hroot
      exact ⟨x, hx⟩
  obtain ⟨x, hx⟩ := hcost
  unfold DijkstraState.relax
  simp only [if_true, toInt_add_weight hw hl h₀ h₁, hx, Option.bind_eq_bind, Option.bind_some]
  split_ifs with hlt
  · exact ⟨_, rfl, h.take hc hw hn hl hend hx hlt⟩
  · exact ⟨st, rfl, h.keep hc hl hx (not_lt.1 hlt)⟩

theorem RunInv.relaxAll (hc : c.WellFormed) (hw : c.CostsBounded linkCost) {n : NodeDist}
    (hn : n ∈ L) (ls : List Link)
    (hls : ∀ l ∈ ls, c.HasLink l ∧ n.node ∈ l.endSwitches) :
    ∀ {st : DijkstraState} {O : List (Link × Int)}, RunInv c linkCost root st L O →
      ∃ st', DijkstraState.relaxAll linkCost true n.dist ls st = some st' ∧
        RunInv c linkCost root st' L (O ++ ls.map fun l => (l, n.dist + weight linkCost l)) := by
  induction ls with
  | nil => exact fun {st O} h => ⟨st, rfl, by simpa using h⟩
  | cons l ls ih =>
    intro st O h
    obtain ⟨hl, hend⟩ := hls l List.mem_cons_self
    obtain ⟨st₁, hr₁, h₁⟩ := h.relax hc hw hn hl hend
    obtain ⟨st₂, hr₂, h₂⟩ := ih (fun l' hl' => hls l' (List.mem_cons_of_mem l hl')) h₁
    refine ⟨st₂, ?_, ?_⟩
    · unfold DijkstraState.relaxAll
      rw [hr₁, Option.bind_eq_bind, Option.bind_some, hr₂]
    · rw [List.append_assoc] at h₂
      exact h₂

/-- Taking an entry of a node that has been entered before. -/
theorem RunInv.skip (h : RunInv c linkCost root st L O) {n : NodeDist} (hseen : n.node ∈ st.seen) :
    RunInv c linkCost root { st with nodeq := st.nodeq.erase n } L O where
  seen := h.seen
  nodup := h.nodup
  entered := h.entered
  walk := h.walk
  offered := h.offered
  rootCost := h.rootCost
  rootHop := h.rootHop
  hopNode := h.hopNode
  cost := h.cost
  queueRange e he := h.queueRange e (List.mem_of_mem_erase he)
  queueOrigin e he := h.queueOrigin e (List.mem_of_mem_erase he)
  queued v x hv hx hlt := by
    refine (List.mem_erase_of_ne ?_).2 (h.queued v x hv hx hlt)
    rintro rfl
    exact hv hseen
  leFirstOffer e he := h.leFirstOffer e (List.mem_of_mem_erase he)

/-- Entering a node, before its links are looked at. -/
theorem RunInv.enter (h : RunInv c linkCost root st L O) {n : NodeDist} (hn : n ∈ st.nodeq)
    (hseen : n.node ∉ st.seen) :
    RunInv c linkCost root
      ⟨st.nexthoplinks, st.cost, setAdd st.seen n.node, st.nodeq.erase n⟩ (L ++ [n]) O := by
  have hadd : setAdd st.seen n.node = st.seen ++ [n.node] := if_neg hseen
  have hmap : (L ++ [n]).map NodeDist.node = L.map NodeDist.node ++ [n.node] := by simp
  have hnew : n.node ∉ L.map NodeDist.node := h.seen ▸ hseen
  obtain ⟨-, hn₀, hn₁, hcost⟩ := h.queueRange n hn
  refine ⟨?_, ?_, ?_, ?_, h.offered, h.rootCost, h.rootHop, h.hopNode, ?_, ?_, ?_, ?_, ?_⟩
  · dsimp only
    rw [hadd, hmap, h.seen]
  · rw [hmap]
    refine List.nodup_append.2 ⟨h.nodup, List.nodup_singleton _, ?_⟩
    intro a ha b hb e
    rw [List.mem_singleton.1 hb] at e
    exact hnew (e ▸ ha)
  · intro n' hn'
    rcases List.mem_append.1 hn' with hn' | hn'
    · exact h.entered n' hn'
    · rw [List.mem_singleton.1 hn']
      exact ⟨hn₀, hn₁, hcost⟩
  · intro n' hn'
    rw [hmap]
    rcases List.mem_append.1 hn' with hn' | hn'
    · obtain ⟨es, hes, hsum, hs, hmem⟩ := h.walk n' hn'
      exact ⟨es, hes, hsum, hs, fun v hv => List.mem_append_left _ (hmem v hv)⟩
    · obtain rfl := List.mem_singleton.1 hn'
      rcases h.queueOrigin n' hn with rfl | ⟨m, hm, l, hl, hsrc, hdst, hdist⟩
      · exact ⟨[], .nil _, rfl, List.nodup_singleton _, by simp⟩
      · -- the walk of the node whose link made the offer, with this link in front
        obtain ⟨es, hes, hsum, hs, hmem⟩ := h.walk m hm
        have hnotin : n'.node ∉ es.map Link.src ++ [root] := fun hv => hnew (hmem _ hv)
        refine ⟨l :: es, ?_, ?_, ?_, ?_⟩
        · rw [← hsrc]
          refine Multigraph.Walk.cons (G := c.graph) hl ?_
          rw [Cluster.graph_dst, hdst]
          exact hes
        · rw [Multigraph.cost_cons, hsum, hdist]
          omega
        · show (l.src :: (es.map Link.src ++ [root])).Nodup
          rw [hsrc]
          exact List.nodup_cons.2 ⟨hnotin, hs⟩
        · intro v hv
          rcases List.mem_cons.1 hv with e | hv
          · rw [e, hsrc]
            exact List.mem_append_right _ List.mem_cons_self
          · exact List.mem_append_left _ (hmem v hv)
  · intro v hv hne
    obtain ⟨x, hx, hle, hall, hex⟩ := h.cost v hv hne
    refine ⟨x, hx, hle, hall, ?_⟩
    rcases hex with hex | ⟨m, hm, hrest⟩
    · exact .inl hex
    · exact .inr ⟨m, List.mem_append_left _ hm, hrest⟩
  · exact fun e he => h.queueRange e (List.mem_of_mem_erase he)
  · intro e he
    rcases h.queueOrigin e (List.mem_of_mem_erase he) with e' | ⟨m, hm, hrest⟩
    · exact .inl e'
    · exact .inr ⟨m, List.mem_append_left _ hm, hrest⟩
  · intro v x hv hx hlt
    rw [mem_setAdd, not_or] at hv
    refine (List.mem_erase_of_ne ?_).2 (h.queued v x hv.1 hx hlt)
    rintro rfl
    exact hv.2 rfl
  · intro e he hv
    rw [mem_setAdd, not_or] at hv
    exact h.leFirstOffer e (List.mem_of_mem_erase he) hv.1

/-! ## Whole runs -/

variable {ord : HashOrder} {queue : NodeQueue}

theorem offers_append (L : List NodeDist) (n : NodeDist) :
    offers ord c linkCost (L ++ [n]) = offers ord c linkCost L ++ offersOf ord c linkCost n := by
  unfold offers
  rw [List.flatMap_append, List.flatMap_singleton]

/-- Whatever entering a node keeps holds at the end of a run, where the queue is empty. -/
theorem dijkstraLoop_run (hc : c.WellFormed) (hw : c.CostsBounded linkCost)
    {Q : List NodeDist → Prop}
    (hQ : ∀ st L n, RunInv c linkCost root st L (offers ord c linkCost L) → Q L →
      queue.peek st.nodeq = some n → n.node ∉ st.seen → Q (L ++ [n])) (fuel : ℕ) :
    ∀ (st st' : DijkstraState) (L : List NodeDist),
      RunInv c linkCost root st L (offers ord c linkCost L) → Q L →
      TopologyInstance.dijkstraLoop ord queue c linkCost true fuel st = some st' →
      ∃ L', RunInv c linkCost root st' L' (offers ord c linkCost L') ∧ Q L' ∧ st'.nodeq = [] := by
  induction fuel with
  | zero => intro st st' L _ _ h; cases h
  | succ fuel ih =>
    intro st st' L hI hL h
    unfold TopologyInstance.dijkstraLoop at h
    cases hp : queue.peek st.nodeq with
    | none =>
      rw [hp] at h
      obtain rfl := Option.some.inj h
      refine ⟨L, hI, hL, ?_⟩
      by_contra hne
      obtain ⟨n, -, hn⟩ := queue.peek_mem _ hne
      rw [hp] at hn
      cases hn
    | some n =>
      have hn := NodeQueue.mem_of_peek hp
      obtain ⟨hnode, -, hlt, -⟩ := hI.queueRange n hn
      rw [hp] at h
      dsimp only at h
      rw [if_neg (not_le.2 hlt)] at h
      split_ifs at h with hseen
      · exact ih _ st' L (hI.skip hseen) hL h
      · obtain ⟨links, hlinks⟩ := (HashMap.mem_keySet_iff _).1 hnode
        have hls : ∀ l ∈ ord.iter links, c.HasLink l ∧ n.node ∈ l.endSwitches := by
          intro l hl
          exact hc.has_iff.1 ⟨links, hlinks, (ord.mem_iter).1 hl⟩
        obtain ⟨st₁, hr, hI₁⟩ := (hI.enter hn hseen).relaxAll hc hw
          (List.mem_append_right L List.mem_cons_self) (ord.iter links) hls
        rw [hlinks, Option.bind_eq_bind, Option.bind_some, hr, Option.bind_eq_bind,
          Option.bind_some] at h
        have hoffers : offers ord c linkCost L ++ (ord.iter links).map
            (fun l => (l, n.dist + weight linkCost l)) = offers ord c linkCost (L ++ [n]) := by
          rw [offers_append]
          unfold offersOf
          rw [hlinks]
          rfl
        rw [hoffers] at hI₁
        exact ih st₁ st' (L ++ [n]) hI₁ (hQ st L n hI hL hp hseen) h

theorem runInv_init (root : Dpid) (hroot : root ∈ c.getNodes) :
    RunInv c linkCost root (TopologyInstance.dijkstraInit ord c root) [] [] := by
  have hget : ∀ v, (TopologyInstance.dijkstraInit ord c root).nexthoplinks.get v =
      if v ∈ ord.iter c.links.keySet then some none else none :=
    fun v => HashMap.get_foldl_put _ _ _ v
  have hhop : ∀ v ∈ c.getNodes,
      (TopologyInstance.dijkstraInit ord c root).nexthoplinks.get v = some none :=
    fun v hv => (hget v).trans (if_pos ((ord.mem_iter).2 hv))
  have hcost := TopologyInstance.get_dijkstraInit_cost ord (c := c) root
  refine ⟨rfl, List.nodup_nil, by simp, by simp, by simp, ?_, hhop root hroot, ?_, ?_, ?_, ?_, ?_,
    ?_⟩
  · rw [hcost, if_pos rfl]
  · intro v l hl
    rw [hget] at hl
    split_ifs at hl
    cases hl
  · intro v hv hne
    refine ⟨MAX_PATH_WEIGHT, ?_, le_rfl, by simp, .inl ⟨rfl, hhop v hv⟩⟩
    rw [hcost, if_neg hne, if_pos hv]
  · intro e he
    rw [List.mem_singleton.1 he]
    have hpos : (0 : Int) < MAX_PATH_WEIGHT := by decide
    refine ⟨hroot, le_rfl, hpos, 0, ?_, le_rfl⟩
    rw [hcost, if_pos rfl]
  · intro e he
    exact .inl (List.mem_singleton.1 he)
  · intro v x hv hx hlt
    unfold firstOffer at hx
    split_ifs at hx with he
    · obtain rfl := Option.some.inj hx
      rw [he]
      exact List.mem_singleton.2 rfl
    · cases hx
  · intro e he hv
    rw [List.mem_singleton.1 he]
    exact ⟨0, by unfold firstOffer; rw [if_pos rfl], le_rfl⟩

variable (ord queue) in
/-- `dijkstra` ends with an empty queue. -/
theorem dijkstra_run (hc : c.WellFormed) (hw : c.CostsBounded linkCost) (hroot : root ∈ c.getNodes)
    {Q : List NodeDist → Prop} (hnil : Q [])
    (hQ : ∀ st L n, RunInv c linkCost root st L (offers ord c linkCost L) → Q L →
      queue.peek st.nodeq = some n → n.node ∉ st.seen → Q (L ++ [n])) :
    ∃ st L, TopologyInstance.dijkstra ord queue c linkCost true root =
        some ⟨st.nexthoplinks, st.cost⟩ ∧
      RunInv c linkCost root st L (offers ord c linkCost L) ∧ Q L ∧ st.nodeq = [] := by
  obtain ⟨tree, htree⟩ := TopologyInstance.dijkstra_isSome ord queue linkCost true hc hroot
  unfold TopologyInstance.dijkstra at htree
  obtain ⟨st, hst, he⟩ := Option.bind_eq_some_iff.1 htree
  obtain ⟨L, hI, hL, hq⟩ := dijkstraLoop_run hc hw hQ _ _ st [] (runInv_init root hroot) hnil hst
  refine ⟨st, L, ?_, hI, hL, hq⟩
  unfold TopologyInstance.dijkstra
  rw [hst]
  rfl

end Run

end Torpedo
