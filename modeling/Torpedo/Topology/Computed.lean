import Mathlib.Algebra.BigOperators.Group.Finset.Basic
import Torpedo.Topology.DepthFirst
import Torpedo.Topology.ShortestPath

/-!
# Computed instances

`compute` returns: the links that `addLinksToOpenflowDomains` files in a cluster are the usable ones
with both ends there, `dijkstra` comes to the end of its queue, and every cluster has the tree that
its broadcast ports are taken from.
-/

namespace Torpedo

/-! ## Links of a cluster -/

namespace Cluster

theorem add_of_mem {c : Cluster} {n : Dpid} (h : n ∈ c.getNodes) : c.add n = c := by
  have hc : c.links.containsKey n = true := (HashMap.mem_keySet _).1 h
  unfold add
  rw [hc]
  rfl

theorem addLinkAt_of_mem {c : Cluster} {l : Link} {n : Dpid} (h : n ∈ c.getNodes) :
    c.addLinkAt l n = { c with links := SetMap.add c.links n l } := by
  unfold addLinkAt
  rw [add_of_mem h]

theorem mem_getNodes_addLinkAt {c : Cluster} {l : Link} {n : Dpid} (h : n ∈ c.getNodes)
    {m : Dpid} : m ∈ (c.addLinkAt l n).getNodes ↔ m ∈ c.getNodes := by
  rw [addLinkAt_of_mem h]
  unfold getNodes at h ⊢
  rw [HashMap.mem_keySet, HashMap.mem_keySet]
  unfold SetMap.add
  rw [HashMap.get_put]
  split_ifs with hm
  · rw [hm]
    exact ⟨fun _ => (HashMap.mem_keySet _).1 h, fun _ => rfl⟩
  · rfl

theorem mem_getNodes_addLink {c : Cluster} {l : Link} (h : l.src ∈ c.getNodes)
    (h' : l.dst ∈ c.getNodes) {m : Dpid} : m ∈ (c.addLink l).getNodes ↔ m ∈ c.getNodes := by
  unfold addLink
  rw [mem_getNodes_addLinkAt ((mem_getNodes_addLinkAt h).2 h'), mem_getNodes_addLinkAt h]

theorem id_addLink {c : Cluster} {l : Link} (h : l.src ∈ c.getNodes)
    (h' : l.dst ∈ c.getNodes) : (c.addLink l).id = c.id := by
  unfold addLink
  rw [addLinkAt_of_mem ((mem_getNodes_addLinkAt h).2 h'), addLinkAt_of_mem h]

theorem has_add {c : Cluster} {n m : Dpid} {l : Link} :
    (c.add n).links.Has m l ↔ c.links.Has m l := by
  unfold SetMap.Has
  rw [get_add]
  split_ifs with hm
  · subst hm
    cases c.links.get m <;> simp
  · rfl

theorem has_addLinkAt {c : Cluster} {n m : Dpid} {l l' : Link} :
    (c.addLinkAt l n).links.Has m l' ↔ c.links.Has m l' ∨ m = n ∧ l' = l := by
  show SetMap.Has (SetMap.add (c.add n).links n l) m l' ↔ _
  rw [SetMap.has_add, has_add]

theorem has_addLink {c : Cluster} {l : Link} {n : Dpid} {l' : Link} :
    (c.addLink l).links.Has n l' ↔ c.links.Has n l' ∨ l' = l ∧ n ∈ l.endSwitches := by
  unfold addLink
  rw [has_addLinkAt, has_addLinkAt, Link.mem_endSwitches]
  tauto

/-- Links are filed at both their end switches. -/
def WellFormed (c : Cluster) : Prop :=
  ∀ n l, c.links.Has n l → n ∈ l.endSwitches ∧ ∀ m ∈ l.endSwitches, c.links.Has m l

/-- The cluster holds the link. -/
def HasLink (c : Cluster) (l : Link) : Prop := c.links.Has l.dst l

theorem mem_getNodes_of_has {c : Cluster} {n : Dpid} {l : Link} (h : c.links.Has n l) :
    n ∈ c.getNodes := by
  obtain ⟨s, hs, -⟩ := h
  exact (HashMap.mem_keySet_iff _).2 ⟨s, hs⟩

theorem WellFormed.has_iff {c : Cluster} (h : c.WellFormed) {n : Dpid} {l : Link} :
    c.links.Has n l ↔ c.HasLink l ∧ n ∈ l.endSwitches := by
  constructor
  · intro hl
    exact ⟨(h n l hl).2 l.dst (by simp), (h n l hl).1⟩
  · rintro ⟨hl, hn⟩
    exact (h _ l hl).2 n hn

theorem WellFormed.src_mem {c : Cluster} (h : c.WellFormed) {l : Link} (hl : c.HasLink l) :
    l.src ∈ c.getNodes := mem_getNodes_of_has (h.has_iff.2 ⟨hl, by simp⟩)

theorem WellFormed.dst_mem {c : Cluster} {l : Link} (hl : c.HasLink l) :
    l.dst ∈ c.getNodes := mem_getNodes_of_has hl

theorem has_foldl_addLink (ls : List Link) (n : Dpid) (l : Link) :
    ∀ c : Cluster, (ls.foldl addLink c).links.Has n l ↔
      c.links.Has n l ∨ l ∈ ls ∧ n ∈ l.endSwitches := by
  induction ls with
  | nil => simp
  | cons l' ls ih =>
    intro c
    rw [List.foldl_cons, ih, has_addLink, List.mem_cons]
    constructor
    · rintro ((h | ⟨rfl, h⟩) | ⟨h, h'⟩)
      · exact .inl h
      · exact .inr ⟨.inl rfl, h⟩
      · exact .inr ⟨.inr h, h'⟩
    · rintro (h | ⟨rfl | h, h'⟩)
      · exact .inl (.inl h)
      · exact .inl (.inr ⟨rfl, h'⟩)
      · exact .inr ⟨h, h'⟩

/-- The cluster of some links. -/
theorem has_ofLinks {ls : List Link} {n : Dpid} {l : Link} :
    (ls.foldl addLink empty).links.Has n l ↔ l ∈ ls ∧ n ∈ l.endSwitches := by
  rw [has_foldl_addLink]
  constructor
  · rintro (⟨s, hs, -⟩ | h)
    · cases hs
    · exact h
  · exact .inr

theorem wellFormed_ofLinks (ls : List Link) : (ls.foldl addLink empty).WellFormed := by
  intro n l h
  obtain ⟨hl, hn⟩ := has_ofLinks.1 h
  exact ⟨hn, fun m hm => has_ofLinks.2 ⟨hl, hm⟩⟩

theorem hasLink_ofLinks {ls : List Link} {l : Link} :
    (ls.foldl addLink empty).HasLink l ↔ l ∈ ls := by
  unfold HasLink
  rw [has_ofLinks]
  simp

end Cluster

namespace TopologyInstance

variable {ord : HashOrder} {t : TopologyInstance}

/-- A link that the OpenFlow domains are made of. -/
def Usable (t : TopologyInstance) (l : Link) : Prop :=
  (∃ s p, t.switchPorts.Has s p ∧ t.switchPortLinks.Has ⟨s, p⟩ l) ∧
    t.isBlockedLink l = false ∧ t.isBroadcastDomainLink l = false

/-- The clusters `cs` divide the switches, and hold the links of `P` inside one cluster. -/
structure Filled (t : TopologyInstance) (cs : List Cluster) (P : Link → Prop) : Prop where
  domains : { t with clusters := cs }.Domains
  has_iff : ∀ k c, cs[k]? = some c → ∀ n l, c.links.Has n l ↔ n ∈ l.endSwitches ∧ P l ∧
    t.switchClusterMap.get l.src = some k ∧ t.switchClusterMap.get l.dst = some k

theorem Filled.congr {cs : List Cluster} {P Q : Link → Prop} (h : t.Filled cs P)
    (hPQ : ∀ l, P l ↔ Q l) : t.Filled cs Q :=
  ⟨h.domains, fun k c hc n l => by rw [h.has_iff k c hc, hPQ]⟩

theorem Filled.wellFormed {cs : List Cluster} {P : Link → Prop} (h : t.Filled cs P) {c : Cluster}
    (hc : c ∈ cs) : c.WellFormed := by
  obtain ⟨k, hk⟩ := List.mem_iff_getElem?.1 hc
  intro n l hl
  obtain ⟨hn, hP⟩ := (h.has_iff k c hk n l).1 hl
  exact ⟨hn, fun m hm => (h.has_iff k c hk m l).2 ⟨hm, hP⟩⟩

theorem Filled.mem_switches (h : t.Filled t.clusters t.Usable) {c : Cluster} (hc : c ∈ t.clusters)
    {v : Dpid} (hv : v ∈ c.getNodes) : v ∈ t.switches := by
  obtain ⟨k, hk⟩ := List.mem_iff_getElem?.1 hc
  exact (h.domains.known v).2 ⟨k, (h.domains.mem_iff k c hk v).1 hv⟩

theorem Filled.addLink {cs : List Cluster} {P : Link → Prop} (h : t.Filled cs P) {l : Link}
    (hs : l.src ∈ t.switches) (hd : l.dst ∈ t.switches) :
    ∃ cs', t.addLinkToOpenflowDomain l cs = some cs' ∧ t.Filled cs' fun l' =>
      P l' ∨ l' = l ∧ t.isBlockedLink l = false ∧ t.isBroadcastDomainLink l = false := by
  unfold addLinkToOpenflowDomain
  split_ifs with hb hbd hcl
  · exact ⟨cs, rfl, h.congr fun l' => by simp [hb]⟩
  · exact ⟨cs, rfl, h.congr fun l' => by simp [hbd]⟩
  · obtain ⟨k, hk⟩ := (h.domains.known l.src).1 hs
    have hk : t.switchClusterMap.get l.src = some k := hk
    have hk' : t.switchClusterMap.get l.dst = some k := hcl ▸ hk
    rw [hk, Option.bind_eq_bind, Option.bind_some]
    refine ⟨_, rfl, ?_⟩
    have hlt : k < cs.length := h.domains.lt l.src k hk
    have hck : cs[k]? = some cs[k] := List.getElem?_eq_getElem hlt
    have hsk : l.src ∈ cs[k].getNodes := (h.domains.mem_iff k _ hck _).2 hk
    have hdk : l.dst ∈ cs[k].getNodes := (h.domains.mem_iff k _ hck _).2 hk'
    -- a cluster of the new list is an old one, or the old one at `k` with the link
    have hcase : ∀ (k' : ℕ) (c' : Cluster), (cs.modify k fun c => c.addLink l)[k']? = some c' →
        ∃ c, cs[k']? = some c ∧ c' = if k = k' then c.addLink l else c := by
      intro k' c' hc'
      rw [List.getElem?_modify] at hc'
      obtain ⟨c, hc, e⟩ := Option.map_eq_some_iff.1 hc'
      exact ⟨c, hc, e.symm⟩
    have hnodes : ∀ (k' : ℕ) (c' : Cluster), (cs.modify k fun c => c.addLink l)[k']? = some c' →
        ∃ c, cs[k']? = some c ∧ (∀ n, n ∈ c'.getNodes ↔ n ∈ c.getNodes) ∧ c'.id = c.id := by
      intro k' c' hc'
      obtain ⟨c, hc, rfl⟩ := hcase k' c' hc'
      refine ⟨c, hc, ?_⟩
      split_ifs with he
      · subst he
        obtain rfl := Option.some.inj (hc.symm.trans hck)
        exact ⟨fun n => Cluster.mem_getNodes_addLink hsk hdk, Cluster.id_addLink hsk hdk⟩
      · exact ⟨fun n => .rfl, rfl⟩
    refine ⟨⟨h.domains.known, ?_, ?_, ?_, ?_⟩, ?_⟩
    · intro s k' hs'
      rw [List.length_modify]
      exact h.domains.lt s k' hs'
    · intro k' c' hc' s
      obtain ⟨c, hc, hn, -⟩ := hnodes k' c' hc'
      rw [hn]
      exact h.domains.mem_iff k' c hc s
    · intro c' hc'
      obtain ⟨k', hk''⟩ := List.mem_iff_getElem?.1 hc'
      obtain ⟨c, hc, hn, -⟩ := hnodes k' c' hk''
      obtain ⟨n, hn'⟩ := List.exists_mem_of_ne_nil _
        (h.domains.nonempty c (List.mem_iff_getElem?.2 ⟨k', hc⟩))
      exact List.ne_nil_of_mem ((hn n).2 hn')
    · intro c' hc'
      obtain ⟨k', hk''⟩ := List.mem_iff_getElem?.1 hc'
      obtain ⟨c, hc, hn, hid⟩ := hnodes k' c' hk''
      have hlow := h.domains.lowestId c (List.mem_iff_getElem?.2 ⟨k', hc⟩)
      constructor
      · intro n hn'
        rw [hid]
        exact hlow.le n ((hn n).1 hn')
      · rw [hid, hn]
        exact hlow.mem
    · intro k' c' hc' n l'
      obtain ⟨c, hc, rfl⟩ := hcase k' c' hc'
      have hold := h.has_iff k' c hc n l'
      split_ifs with he
      · subst he
        obtain rfl := Option.some.inj (hc.symm.trans hck)
        rw [Cluster.has_addLink, hold]
        constructor
        · rintro (⟨a, b, c⟩ | ⟨rfl, a⟩)
          · exact ⟨a, .inl b, c⟩
          · exact ⟨a, .inr ⟨rfl, by simpa using hb, by simpa using hbd⟩, hk, hk'⟩
        · rintro ⟨a, b | ⟨rfl, -⟩, c⟩
          · exact .inl ⟨a, b, c⟩
          · exact .inr ⟨rfl, a⟩
      · rw [hold]
        constructor
        · rintro ⟨a, b, c⟩
          exact ⟨a, .inl b, c⟩
        · rintro ⟨a, b | ⟨rfl, -⟩, c⟩
          · exact ⟨a, b, c⟩
          · exact absurd (Option.some.inj (hk.symm.trans c.1)) he
  · refine ⟨cs, rfl, h.domains, fun k c hc n l' => ?_⟩
    rw [h.has_iff k c hc]
    constructor
    · rintro ⟨a, b, c⟩
      exact ⟨a, .inl b, c⟩
    · rintro ⟨a, b | ⟨rfl, -⟩, c, d⟩
      · exact ⟨a, b, c, d⟩
      · exact absurd (c.trans d.symm) hcl

theorem Filled.foldlM_addLink (ls : List Link)
    (hls : ∀ l ∈ ls, l.src ∈ t.switches ∧ l.dst ∈ t.switches) :
    ∀ {cs : List Cluster} {P : Link → Prop}, t.Filled cs P →
      ∃ cs', ls.foldlM (fun cs l => t.addLinkToOpenflowDomain l cs) cs = some cs' ∧
        t.Filled cs' fun l => P l ∨
          l ∈ ls ∧ t.isBlockedLink l = false ∧ t.isBroadcastDomainLink l = false := by
  induction ls with
  | nil => exact fun {cs P} h => ⟨cs, rfl, h.congr fun l => by simp⟩
  | cons l ls ih =>
    intro cs P h
    obtain ⟨hs, hd⟩ := hls l List.mem_cons_self
    obtain ⟨cs₁, hr₁, h₁⟩ := h.addLink hs hd
    obtain ⟨cs₂, hr₂, h₂⟩ := ih (fun l' hl' => hls l' (List.mem_cons_of_mem l hl')) h₁
    refine ⟨cs₂, ?_, h₂.congr fun l' => ?_⟩
    · rw [List.foldlM_cons, hr₁, Option.bind_eq_bind, Option.bind_some, hr₂]
    · rw [List.mem_cons]
      constructor
      · rintro ((h | ⟨rfl, h⟩) | ⟨h, h'⟩)
        · exact .inl h
        · exact .inr ⟨.inl rfl, h⟩
        · exact .inr ⟨.inr h, h'⟩
      · rintro (h | ⟨rfl | h, h'⟩)
        · exact .inl (.inl h)
        · exact .inl (.inr ⟨rfl, h'⟩)
        · exact .inr ⟨h, h'⟩

theorem mem_linksOffBroadcastDomain {s : Dpid} {l : Link} :
    l ∈ t.linksOffBroadcastDomain ord s ↔ ∃ p, t.switchPorts.Has s p ∧
      t.switchPortLinks.Has ⟨s, p⟩ l ∧ t.isBroadcastDomainPort ⟨s, p⟩ = false := by
  unfold linksOffBroadcastDomain SetMap.Has
  cases t.switchPorts.get s with
  | none => simp
  | some ports =>
    simp only [List.mem_flatMap, HashOrder.mem_iter, Option.some.injEq, exists_eq_left']
    refine exists_congr fun p => and_congr_right fun _ => ?_
    cases t.switchPortLinks.get ⟨s, p⟩ with
    | none => simp
    | some lset => cases hb : t.isBroadcastDomainPort ⟨s, p⟩ <;> simp

/-- The links met outside broadcast domain ports are, once broadcast domain links are left out,
all the links. -/
theorem usable_iff (hF : t.Filed) (hsw : ∀ s, s ∈ t.switches ↔ (t.switchPorts.get s).isSome)
    (l : Link) :
    t.Usable l ↔ l ∈ (ord.iter t.switches).flatMap (t.linksOffBroadcastDomain ord) ∧
      t.isBlockedLink l = false ∧ t.isBroadcastDomainLink l = false := by
  unfold Usable
  rw [List.mem_flatMap]
  simp only [HashOrder.mem_iter, mem_linksOffBroadcastDomain]
  constructor
  · rintro ⟨⟨s, p, hp, hl⟩, hb, hbd⟩
    refine ⟨⟨s, ?_, p, hp, hl, ?_⟩, hb, hbd⟩
    · obtain ⟨ports, hports, -⟩ := hp
      rw [hsw, hports]
      rfl
    · unfold isBroadcastDomainLink at hbd
      rw [Bool.or_eq_false_iff] at hbd
      rcases Link.mem_ends.1 (hF.ends _ l hl) with e | e
      · rw [e]; exact hbd.1
      · rw [e]; exact hbd.2
  · rintro ⟨⟨s, -, p, hp, hl, -⟩, hb⟩
    exact ⟨⟨s, p, hp, hl⟩, hb⟩

variable (ord) in
theorem addLinksToOpenflowDomains_spec (hF : t.Filed)
    (hsw : ∀ s, s ∈ t.switches ↔ (t.switchPorts.get s).isSome) (hD : t.Domains)
    (hno : ∀ c ∈ t.clusters, c.NoLinks) :
    ∃ cs, t.addLinksToOpenflowDomains ord = some { t with clusters := cs } ∧
      t.Filled cs t.Usable := by
  have h₀ : t.Filled t.clusters fun _ => False := by
    refine ⟨hD, fun k c hc n l => ?_⟩
    simp only [false_and, and_false, iff_false]
    rintro ⟨s, hs, hl⟩
    rcases hno c (List.mem_iff_getElem?.2 ⟨k, hc⟩) n with e | e
    · rw [e] at hs; cases hs
    · rw [e] at hs; cases hs; cases hl
  obtain ⟨cs, hr, h⟩ := h₀.foldlM_addLink
    ((ord.iter t.switches).flatMap (t.linksOffBroadcastDomain ord)) (by
      intro l hl
      obtain ⟨s, -, hl⟩ := List.mem_flatMap.1 hl
      obtain ⟨p, -, hl, -⟩ := mem_linksOffBroadcastDomain.1 hl
      exact ⟨hF.src_mem _ l hl, hF.dst_mem _ l hl⟩)
  refine ⟨cs, ?_, h.congr fun l => ?_⟩
  · unfold addLinksToOpenflowDomains
    dsimp only
    rw [hr, Option.bind_eq_bind, Option.bind_some]
  · rw [usable_iff hF hsw, false_or]

end TopologyInstance

/-! ## Dijkstra returns -/

namespace DijkstraState

/-- Costs are kept for the nodes of the cluster, and only nodes of the cluster are queued. -/
structure Within (c : Cluster) (st : DijkstraState) : Prop where
  cost : ∀ n, n ∈ c.getNodes → (st.cost.get n).isSome
  nodeq : ∀ e ∈ st.nodeq, e.node ∈ c.getNodes

variable {c : Cluster} (linkCost : Option (HashMap Link Int)) (isDstRooted : Bool)

theorem relax_spec {st : DijkstraState} (h : st.Within c) (cdist : Int) {link : Link}
    (hs : link.src ∈ c.getNodes) (hd : link.dst ∈ c.getNodes) :
    ∃ st', st.relax linkCost isDstRooted cdist link = some st' ∧ st'.Within c ∧
      st'.seen = st.seen ∧ st'.nodeq.length ≤ st.nodeq.length + 1 := by
  set neighbor := if isDstRooted = true then link.src else link.dst with hn
  have hmem : neighbor ∈ c.getNodes := by
    rw [hn]
    split_ifs <;> assumption
  obtain ⟨cost, hcost⟩ := Option.isSome_iff_exists.1 (h.cost neighbor hmem)
  unfold relax
  dsimp only
  rw [← hn, hcost, Option.bind_eq_bind, Option.bind_some]
  split_ifs with hlt
  · refine ⟨_, rfl, ⟨?_, ?_⟩, rfl, by simp⟩
    · intro n hn'
      show (HashMap.get _ n).isSome = true
      rw [HashMap.get_put]
      split_ifs
      · rfl
      · exact h.cost n hn'
    · intro e he
      rcases List.mem_append.1 he with he | he
      · exact h.nodeq e he
      · rw [List.mem_singleton.1 he]; exact hmem
  · exact ⟨st, rfl, h, rfl, by omega⟩

theorem relaxAll_spec (cdist : Int) (links : List Link)
    (hl : ∀ l ∈ links, l.src ∈ c.getNodes ∧ l.dst ∈ c.getNodes) :
    ∀ {st : DijkstraState}, st.Within c →
      ∃ st', relaxAll linkCost isDstRooted cdist links st = some st' ∧ st'.Within c ∧
        st'.seen = st.seen ∧ st'.nodeq.length ≤ st.nodeq.length + links.length := by
  induction links with
  | nil => exact fun {st} h => ⟨st, rfl, h, rfl, by simp⟩
  | cons l links ih =>
    intro st h
    obtain ⟨hs, hd⟩ := hl l List.mem_cons_self
    obtain ⟨st₁, hr₁, h₁, hseen₁, hlen₁⟩ :=
      relax_spec linkCost isDstRooted h cdist hs hd
    obtain ⟨st₂, hr₂, h₂, hseen₂, hlen₂⟩ :=
      ih (fun l' hl' => hl l' (List.mem_cons_of_mem l hl')) h₁
    refine ⟨st₂, ?_, h₂, hseen₂.trans hseen₁, ?_⟩
    · unfold relaxAll
      rw [hr₁, Option.bind_eq_bind, Option.bind_some, hr₂]
    · rw [List.length_cons]; omega

/-- An upper bound for the number of rounds left: the queued entries, and one more for every link
of a node that has not been seen. -/
def roundsLeft (c : Cluster) (st : DijkstraState) : ℕ :=
  st.nodeq.length +
    ∑ n ∈ c.getNodes.toFinset \ st.seen.toFinset, ((c.links.get n).getD []).length

end DijkstraState

namespace TopologyInstance

open DijkstraState

variable (ord : HashOrder) (queue : NodeQueue) {c : Cluster}
  (linkCost : Option (HashMap Link Int)) (isDstRooted : Bool)

theorem dijkstraLoop_isSome (hc : c.WellFormed) (fuel : ℕ) :
    ∀ st : DijkstraState, st.Within c → st.roundsLeft c < fuel →
      ∃ st', dijkstraLoop ord queue c linkCost isDstRooted fuel st = some st' := by
  induction fuel with
  | zero => intro st _ h; omega
  | succ fuel ih =>
    intro st h hfuel
    unfold dijkstraLoop
    cases hp : queue.peek st.nodeq with
    | none => exact ⟨st, rfl⟩
    | some n =>
      dsimp only
      have hne : st.nodeq ≠ [] := by
        rintro e
        rw [e, queue.peek_nil] at hp
        cases hp
      obtain ⟨n', hn', hp'⟩ := queue.peek_mem st.nodeq hne
      obtain rfl := Option.some.inj (hp.symm.trans hp')
      have hlen : (st.nodeq.erase n).length + 1 = st.nodeq.length := by
        rw [List.length_erase_of_mem hn']
        have := List.length_pos_of_mem hn'
        omega
      have hnode := h.nodeq n hn'
      have herase : ∀ e ∈ st.nodeq.erase n, e.node ∈ c.getNodes :=
        fun e he => h.nodeq e (List.mem_of_mem_erase he)
      split_ifs with hbreak hseen
      · exact ⟨_, rfl⟩
      · refine ih _ ⟨h.cost, herase⟩ ?_
        unfold roundsLeft at hfuel ⊢
        dsimp only
        omega
      · obtain ⟨links, hlinks⟩ := (HashMap.mem_keySet_iff _).1 hnode
        rw [hlinks, Option.bind_eq_bind, Option.bind_some]
        have hends : ∀ l ∈ ord.iter links, l.src ∈ c.getNodes ∧ l.dst ∈ c.getNodes := by
          intro l hl
          have hl := (hc.has_iff.1 ⟨links, hlinks, (ord.mem_iter).1 hl⟩).1
          exact ⟨hc.src_mem hl, Cluster.WellFormed.dst_mem hl⟩
        have hW : (⟨st.nexthoplinks, st.cost, setAdd st.seen n.node, st.nodeq.erase n⟩ :
            DijkstraState).Within c := ⟨h.cost, herase⟩
        obtain ⟨st₁, hr, h₁, hseen₁, hlen₁⟩ :=
          relaxAll_spec linkCost isDstRooted n.dist (ord.iter links) hends hW
        rw [hr, Option.bind_eq_bind, Option.bind_some]
        refine ih st₁ h₁ ?_
        -- the links of the node just seen pay for the entries just queued
        have hset : c.getNodes.toFinset \ st₁.seen.toFinset =
            (c.getNodes.toFinset \ st.seen.toFinset).erase n.node := by
          ext m
          rw [hseen₁]
          simp only [Finset.mem_sdiff, List.mem_toFinset, mem_setAdd, Finset.mem_erase]
          tauto
        have hmem : n.node ∈ c.getNodes.toFinset \ st.seen.toFinset := by
          simp only [Finset.mem_sdiff, List.mem_toFinset]
          exact ⟨hnode, hseen⟩
        have hsum := Finset.add_sum_erase _ (fun n => ((c.links.get n).getD []).length) hmem
        have hcount : ((c.links.get n.node).getD []).length = (ord.iter links).length := by
          rw [hlinks]
          exact (ord.perm links).length_eq.symm
        unfold roundsLeft at hfuel ⊢
        rw [hset]
        dsimp only at hsum hlen₁
        omega

theorem get_dijkstraInit_cost (root n : Dpid) :
    (dijkstraInit ord c root).cost.get n =
      if n = root then some 0 else if n ∈ c.getNodes then some MAX_PATH_WEIGHT else none := by
  show (HashMap.put _ _ _).get n = _
  rw [HashMap.get_put, HashMap.get_foldl_put]
  simp only [HashOrder.mem_iter, HashMap.get_empty]
  rfl

theorem dijkstra_isSome (hc : c.WellFormed) {root : Dpid} (hroot : root ∈ c.getNodes) :
    ∃ tree, dijkstra ord queue c linkCost isDstRooted root = some tree := by
  have hW : (dijkstraInit ord c root).Within c := by
    constructor
    · intro n hn
      rw [get_dijkstraInit_cost]
      split_ifs <;> rfl
    · intro e he
      rw [List.mem_singleton.1 he]
      exact hroot
  have hrounds : (dijkstraInit ord c root).roundsLeft c < dijkstraRounds c := by
    unfold roundsLeft dijkstraRounds Cluster.getNodes
    have hnil : (dijkstraInit ord c root).seen.toFinset = ∅ := rfl
    have hone : (dijkstraInit ord c root).nodeq.length = 1 := rfl
    rw [hnil, hone, Finset.sdiff_empty, List.sum_toFinset _ c.links.nodup_keySet]
    omega
  obtain ⟨st, hst⟩ := dijkstraLoop_isSome ord queue linkCost isDstRooted hc _ _ hW hrounds
  exact ⟨_, by unfold dijkstra; rw [hst]; rfl⟩

end TopologyInstance

/-! ## The whole computation -/

/-- A loop that puts the value computed for each element under its key. -/
theorem HashMap.foldlM_put {κ ν α : Type} [DecidableEq κ] (key : α → κ) (f : α → Option ν)
    (cs : List α) (hf : ∀ c ∈ cs, (f c).isSome) (m : HashMap κ ν) :
    ∃ m', cs.foldlM (fun m c => do
        let v ← f c
        some (HashMap.put m (key c) v)) m = some m' ∧
      (∀ c ∈ cs, (∀ c' ∈ cs, key c' = key c → c' = c) → m'.get (key c) = f c) ∧
      ∀ k, (∀ c ∈ cs, key c ≠ k) → m'.get k = m.get k := by
  induction cs generalizing m with
  | nil => exact ⟨m, rfl, by simp, fun _ _ => rfl⟩
  | cons c cs ih =>
    obtain ⟨v, hv⟩ := Option.isSome_iff_exists.1 (hf c List.mem_cons_self)
    obtain ⟨m', hr, hin, hout⟩ :=
      ih (fun c' hc' => hf c' (List.mem_cons_of_mem c hc')) (m.put (key c) v)
    refine ⟨m', ?_, ?_, ?_⟩
    · rw [List.foldlM_cons, hv]
      exact hr
    · intro c' hc' huniq
      by_cases hmem : c' ∈ cs
      · exact hin c' hmem fun c'' hc'' => huniq c'' (List.mem_cons_of_mem c hc'')
      · have he : c' = c := (List.mem_cons.1 hc').resolve_right hmem
        subst he
        rw [hout (key c'), HashMap.get_put_self, hv]
        intro c'' hc'' hk
        exact hmem (huniq c'' (List.mem_cons_of_mem c' hc'') hk ▸ hc'')
    · intro k hk
      rw [hout k fun c' hc' => hk c' (List.mem_cons_of_mem c hc'), HashMap.get_put,
        if_neg (hk c List.mem_cons_self).symm]

namespace TopologyInstance

variable (ord : HashOrder) (queue : NodeQueue) {t : TopologyInstance}

theorem Domains.cluster_unique (h : t.Domains) {c c' : Cluster} (hc : c ∈ t.clusters)
    (hc' : c' ∈ t.clusters) {n : Dpid} (hn : n ∈ c.getNodes) (hn' : n ∈ c'.getNodes) : c' = c := by
  obtain ⟨k, hk⟩ := List.mem_iff_getElem?.1 hc
  obtain ⟨k', hk'⟩ := List.mem_iff_getElem?.1 hc'
  have e := (h.mem_iff k c hk n).1 hn
  have e' := (h.mem_iff k' c' hk' n).1 hn'
  rw [e] at e'
  obtain rfl := Option.some.inj e'
  exact Option.some.inj (hk'.symm.trans hk)

theorem Domains.id_mem (h : t.Domains) {c : Cluster} (hc : c ∈ t.clusters) :
    c.id ∈ c.getNodes := (h.lowestId c hc).id_mem (h.nonempty c hc)

theorem Domains.id_unique (h : t.Domains) {c c' : Cluster} (hc : c ∈ t.clusters)
    (hc' : c' ∈ t.clusters) (hid : c'.id = c.id) : c' = c :=
  h.cluster_unique hc hc' (h.id_mem hc) (hid ▸ h.id_mem hc')

theorem addTrees_spec {c : Cluster} (hc : c.WellFormed) (linkCost : HashMap Link Int)
    (trees : HashMap Dpid BroadcastTree) :
    ∃ trees', addTrees ord queue linkCost trees c = some trees' ∧
      (∀ n ∈ c.getNodes, trees'.get n = dijkstra ord queue c (some linkCost) true n) ∧
      ∀ n, n ∉ c.getNodes → trees'.get n = trees.get n := by
  have hsome : ∀ n ∈ ord.iter c.links.keySet,
      (dijkstra ord queue c (some linkCost) true n).isSome := by
    intro n hn
    obtain ⟨tree, htree⟩ :=
      dijkstra_isSome ord queue (some linkCost) true hc ((ord.mem_iter).1 hn)
    rw [htree]
    rfl
  obtain ⟨trees', hr, hin, hout⟩ := HashMap.foldlM_put id
    (dijkstra ord queue c (some linkCost) true) (ord.iter c.links.keySet) hsome trees
  refine ⟨trees', hr, fun n hn => hin n ((ord.mem_iter).2 hn) fun _ _ e => e, fun n hn => ?_⟩
  exact hout n fun n' hn' e => hn (e ▸ (ord.mem_iter).1 hn')

theorem foldlM_addTrees (linkCost : HashMap Link Int) (cs : List Cluster)
    (hcs : ∀ c ∈ cs, c.WellFormed) (trees : HashMap Dpid BroadcastTree) :
    ∃ trees', cs.foldlM (addTrees ord queue linkCost) trees = some trees' ∧
      (∀ c ∈ cs, ∀ n ∈ c.getNodes, (∀ c' ∈ cs, n ∈ c'.getNodes → c' = c) →
        trees'.get n = dijkstra ord queue c (some linkCost) true n) ∧
      ∀ n, (∀ c ∈ cs, n ∉ c.getNodes) → trees'.get n = trees.get n := by
  induction cs generalizing trees with
  | nil => exact ⟨trees, rfl, by simp, fun _ _ => rfl⟩
  | cons c cs ih =>
    obtain ⟨trees₁, hr₁, hin₁, hout₁⟩ :=
      addTrees_spec ord queue (hcs c List.mem_cons_self) linkCost trees
    obtain ⟨trees', hr, hin, hout⟩ :=
      ih (fun c' hc' => hcs c' (List.mem_cons_of_mem c hc')) trees₁
    refine ⟨trees', ?_, ?_, ?_⟩
    · rw [List.foldlM_cons, hr₁]
      exact hr
    · intro c' hc' n hn huniq
      by_cases hmem : ∃ c'' ∈ cs, n ∈ c''.getNodes
      · obtain ⟨c'', hc'', hn''⟩ := hmem
        obtain rfl := huniq c'' (List.mem_cons_of_mem c hc'') hn''
        exact hin c'' hc'' n hn fun d hd => huniq d (List.mem_cons_of_mem c hd)
      · have hc : c' = c :=
          (List.mem_cons.1 hc').resolve_right fun h => hmem ⟨c', h, hn⟩
        rw [hout n fun c'' hc'' hn'' => hmem ⟨c'', hc'', hn''⟩, hc]
        exact hin₁ n (hc ▸ hn)
    · intro n hn
      rw [hout n fun c' hc' => hn c' (List.mem_cons_of_mem c hc'),
        hout₁ n (hn c List.mem_cons_self)]

/-- Every node of a cluster gets the tree that `dijkstra` finds in its cluster. -/
theorem calculateShortestPathTreeInClusters_spec (hD : t.Domains)
    (hwf : ∀ c ∈ t.clusters, c.WellFormed) :
    ∃ trees, t.calculateShortestPathTreeInClusters ord queue =
        some { t with pathcache := [], destinationRootedTrees := trees } ∧
      (∀ c ∈ t.clusters, ∀ n ∈ c.getNodes, ∃ tree,
        dijkstra ord queue c (some (t.tunnelLinkCost ord)) true n = some tree ∧
          trees.get n = some tree) ∧
      ∀ n tree, trees.get n = some tree → n ∈ t.switches := by
  obtain ⟨trees, hr, hin, hout⟩ := foldlM_addTrees ord queue (t.tunnelLinkCost ord)
    (ord.iter t.clusters) (fun c hc => hwf c ((ord.mem_iter).1 hc)) ∅
  refine ⟨trees, ?_, ?_, ?_⟩
  · unfold calculateShortestPathTreeInClusters
    rw [hr]
    rfl
  · intro c hc n hn
    obtain ⟨tree, ht⟩ :=
      dijkstra_isSome ord queue (some (t.tunnelLinkCost ord)) true (hwf c hc) hn
    refine ⟨tree, ht, (hin c ((ord.mem_iter).2 hc) n hn fun c' hc' hn' => ?_).trans ht⟩
    exact hD.cluster_unique hc ((ord.mem_iter).1 hc') hn hn'
  · intro n tree ht
    by_contra hn
    rw [hout n, HashMap.get_empty] at ht
    · cases ht
    · intro c hc hmem
      obtain ⟨k, hk⟩ := List.mem_iff_getElem?.1 ((ord.mem_iter).1 hc)
      exact hn ((hD.known n).2 ⟨k, (hD.mem_iff k c hk n).1 hmem⟩)

/-- Every cluster gets the broadcast ports of the tree of its lowest switch. -/
theorem calculateBroadcastNodePortsInClusters_spec (hD : t.Domains)
    (htree : ∀ c ∈ t.clusters, (t.destinationRootedTrees.get c.id).isSome) :
    ∃ trees ports, t.calculateBroadcastNodePortsInClusters ord =
        some { t with clusterBroadcastTrees := trees, clusterBroadcastNodePorts := ports } ∧
      ∀ c ∈ t.clusters, ∃ tree, t.destinationRootedTrees.get c.id = some tree ∧
        ports.get c.id = some (treePorts ord tree) := by
  have hids : ∀ c ∈ ord.iter t.clusters, ∀ c' ∈ ord.iter t.clusters, c'.id = c.id → c' = c :=
    fun c hc c' hc' => hD.id_unique ((ord.mem_iter).1 hc) ((ord.mem_iter).1 hc')
  obtain ⟨trees, hb, hbin, -⟩ := HashMap.foldlM_put Cluster.id
    (fun c => t.destinationRootedTrees.get c.id) (ord.iter t.clusters)
    (fun c hc => htree c ((ord.mem_iter).1 hc)) ∅
  have hbtree : ∀ c ∈ ord.iter t.clusters, trees.get c.id = t.destinationRootedTrees.get c.id :=
    fun c hc => hbin c hc (hids c hc)
  obtain ⟨ports, hp, hpin, -⟩ := HashMap.foldlM_put Cluster.id
    (fun c => (trees.get c.id).map (treePorts ord)) (ord.iter t.clusters) (by
      intro c hc
      rw [hbtree c hc, Option.isSome_map]
      exact htree c ((ord.mem_iter).1 hc)) t.clusterBroadcastNodePorts
  refine ⟨trees, ports, ?_, ?_⟩
  · have hb' : t.calculateBroadcastTreeInClusters ord =
        some { t with clusterBroadcastTrees := trees } := by
      unfold calculateBroadcastTreeInClusters
      rw [hb]
      rfl
    have hp' : (ord.iter t.clusters).foldlM (fun nodePorts c => do
        let tree ← trees.get c.id
        some (HashMap.put nodePorts c.id (treePorts ord tree))) t.clusterBroadcastNodePorts =
          some ports := by
      rw [← hp]
      congr 1
      funext m c
      cases trees.get c.id <;> rfl
    unfold calculateBroadcastNodePortsInClusters
    rw [hb', Option.bind_eq_bind, Option.bind_some]
    dsimp only
    rw [hp']
    rfl
  · intro c hc
    have hc' := (ord.mem_iter).2 hc
    obtain ⟨tree, ht⟩ := Option.isSome_iff_exists.1 (htree c hc)
    refine ⟨tree, ht, ?_⟩
    rw [hpin c hc' (hids c hc'), hbtree c hc', ht]
    rfl

/-- `t` is `t₀` after `compute`. -/
structure Computed (t₀ t : TopologyInstance) : Prop where
  switches : t.switches = t₀.switches
  switchPorts : t.switchPorts = t₀.switchPorts
  blockedPorts : t.blockedPorts = t₀.blockedPorts
  switchPortLinks : t.switchPortLinks = t₀.switchPortLinks
  broadcastDomainPorts : t.broadcastDomainPorts = t₀.broadcastDomainPorts
  tunnelPorts : t.tunnelPorts = t₀.tunnelPorts
  pathcache : t.pathcache = []
  roots : ∃ st, t₀.dfsRoots ord (ord.iter t₀.switches) (t₀.dfsInit ord) = some st ∧
    t.switchClusterMap = st.switchClusterMap
  filled : t.Filled t.clusters t.Usable
  trees : ∀ c ∈ t.clusters, ∀ n ∈ c.getNodes, ∃ tree,
    dijkstra ord queue c (some (t.tunnelLinkCost ord)) true n = some tree ∧
      t.destinationRootedTrees.get n = some tree
  treeRoots : ∀ n tree, t.destinationRootedTrees.get n = some tree → n ∈ t.switches
  nodePorts : ∀ c ∈ t.clusters, ∃ tree, t.destinationRootedTrees.get c.id = some tree ∧
    t.clusterBroadcastNodePorts.get c.id = some (treePorts ord tree)

theorem compute_spec (hF : t.Filed) (hN : t.New) :
    ∃ t', t.compute ord queue = some t' ∧ Computed ord queue t t' := by
  obtain ⟨st, hroots, hid, hI, hD⟩ := identifyOpenflowDomains_spec ord hF hN
  set t₁ : TopologyInstance :=
    { t with clusters := st.clusters, switchClusterMap := st.switchClusterMap }
  have hF₁ : t₁.Filed := ⟨hF.ends, hF.src_mem, hF.dst_mem⟩
  obtain ⟨cs, hlinks, hfill⟩ := addLinksToOpenflowDomains_spec ord hF₁ hN.switches hD
    hI.base.divided.noLinks
  set t₂ : TopologyInstance := { t₁ with clusters := cs }
  have hD₂ : t₂.Domains := hfill.domains
  obtain ⟨trees, hcalc, hin, hroot⟩ :=
    calculateShortestPathTreeInClusters_spec ord queue hD₂ fun c hc => hfill.wellFormed hc
  set t₃ : TopologyInstance := { t₂ with pathcache := [], destinationRootedTrees := trees }
  have hD₃ : t₃.Domains := ⟨hD₂.known, hD₂.lt, hD₂.mem_iff, hD₂.nonempty, hD₂.lowestId⟩
  have htree : ∀ c ∈ t₃.clusters, (t₃.destinationRootedTrees.get c.id).isSome := by
    intro c hc
    obtain ⟨tree, -, ht⟩ := hin c hc c.id (hD₂.id_mem hc)
    exact Option.isSome_iff_exists.2 ⟨tree, ht⟩
  obtain ⟨btrees, ports, hports, hp⟩ := calculateBroadcastNodePortsInClusters_spec ord hD₃ htree
  refine ⟨{ t₃ with clusterBroadcastTrees := btrees, clusterBroadcastNodePorts := ports }, ?_, ?_⟩
  · simp only [compute, Option.bind_eq_bind, hid, Option.bind_some, hlinks, hcalc, hports]
  · constructor
    case roots => exact ⟨st, hroots, rfl⟩
    case filled => exact ⟨⟨hD₂.known, hD₂.lt, hD₂.mem_iff, hD₂.nonempty, hD₂.lowestId⟩,
      hfill.has_iff⟩
    case trees => exact hin
    case treeRoots => exact hroot
    case nodePorts => exact hp
    all_goals rfl

end TopologyInstance

end Torpedo
