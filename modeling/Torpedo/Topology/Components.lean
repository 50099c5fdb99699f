import Torpedo.Topology.Search
import Torpedo.Topology.ShortestPathCosts

/-!
# Clusters and strongly connected components

As long as every call of `dfsTraverse` is good, the clusters are strongly connected components and
every switch of the current set lies on a cycle with a switch of the path. A call that is not good
closes a cluster with switches of the current set, apart from switches that they share a cycle with,
and nothing mends that later on (`clusters_eq_components_iff`).
-/

namespace Torpedo

namespace TopologyInstance

open DfsState

/-! ## The invariant of good calls -/

/-- The clusters found so far are components, and the switches of the current set lie on cycles
with switches of the path. -/
structure Tarjan (t : TopologyInstance) (st : DfsState) : Prop where
  closed : ∀ l, t.domainGraph.IsEdge l → (st.switchClusterMap.get l.src).isSome →
    (st.switchClusterMap.get l.dst).isSome
  exact : ∀ s s' k, st.switchClusterMap.get s = some k →
    (st.switchClusterMap.get s' = some k ↔ t.domainGraph.Mutual s s')
  curr : ∀ s ∈ st.currSet, ∃ z, st.OnPath z ∧ t.domainGraph.Mutual s z

/-- The call for `v` is made from the end of the path, and `p` is the highest index on the path. -/
structure Ready (t : TopologyInstance) (st : DfsState) (v : Dpid) (p : WithTop ℤ) : Prop where
  tarjan : t.Tarjan st
  reaches : ∀ z, st.OnPath z → t.domainGraph.Reaches z v
  le : ∀ z d, st.OnPath z → st.dfsList.get z = some d → d.dfsIndex ≤ p

/-- What good calls keep in the loop of the call for `v`: no cluster is closed unless the call
found the current set empty, and the lowpoint covers the links to open switches. -/
structure Progress (t : TopologyInstance) (st₀ : DfsState) (v : Dpid) (done : List Link)
    (st : DfsState) : Prop where
  tarjan : t.Tarjan st
  kept : st₀.currSet ≠ [] → ∀ s, st.switchClusterMap.get s = st₀.switchClusterMap.get s
  low : ∀ d l d', st.dfsList.get v = some d → t.domainGraph.IsEdge l → st.Visited l.src →
    ¬st₀.Visited l.src → (l.src = v → l ∈ done) → st₀.Open l.dst →
    st₀.dfsList.get l.dst = some d' → d.lowpoint ≤ d'.dfsIndex

/-- Two switches on a cycle that are not put into one cluster any more. -/
def Damaged (t : TopologyInstance) (st : DfsState) : Prop :=
  ∃ s s' k, st.switchClusterMap.get s = some k ∧ st.switchClusterMap.get s' ≠ some k ∧
    t.domainGraph.Mutual s s'

variable {ord : HashOrder} {t : TopologyInstance} {st₀ st st' : DfsState} {v : Dpid}
  {p : WithTop ℤ} {i₀ i i' : ℤ} {done : List Link} {l : Link}

theorem Tarjan.congr (h : t.Tarjan st) (hcl : st'.switchClusterMap = st.switchClusterMap)
    (hcur : st'.currSet = st.currSet) (hon : ∀ s, st.OnPath s → st'.OnPath s) : t.Tarjan st' where
  closed := by
    rw [hcl]
    exact h.closed
  exact := by
    rw [hcl]
    exact h.exact
  curr s hs := by
    rw [hcur] at hs
    obtain ⟨z, hz, hm⟩ := h.curr s hs
    exact ⟨z, hon z hz, hm⟩

/-- The clusters are closed under reachability. -/
theorem Tarjan.closed_reaches (h : t.Tarjan st) {s s' : Dpid} (hr : t.domainGraph.Reaches s s')
    (hs : (st.switchClusterMap.get s).isSome) : (st.switchClusterMap.get s').isSome := by
  induction hr with
  | refl => exact hs
  | tail _ hadj ih =>
    obtain ⟨e, he, rfl, rfl⟩ := hadj
    exact h.closed e he ih

/-- Damage stays: a switch keeps its cluster, and clusters closed later are new. -/
theorem Damaged.mono (h : t.Damaged st) (hB : st.Base t.switches)
    (hcl : ∀ s k, st.switchClusterMap.get s = some k → st'.switchClusterMap.get s = some k)
    (hlater : ∀ s k, st.switchClusterMap.get s = none → st'.switchClusterMap.get s = some k →
      st.clusters.length ≤ k) : t.Damaged st' := by
  obtain ⟨s, s', k, hs, hs', hm⟩ := h
  refine ⟨s, s', k, hcl s k hs, fun hk => ?_, hm⟩
  cases hst : st.switchClusterMap.get s' with
  | none =>
    have hlt := hB.divided.lt s k hs
    have hle := hlater s' k hst hk
    omega
  | some k' =>
    rw [hcl s' k' hst] at hk
    exact hs' (hst.trans hk)

/-! ## Entering and the loop -/

theorem Entry.progress (h : t.Entry st₀ v p i₀) (hR : t.Ready st₀ v p) :
    t.Progress st₀ v [] (st₀.enter v p i₀) where
  tarjan := hR.tarjan.congr (switchClusterMap_modify _ _ _) (currSet_modify _ _ _) fun s hs =>
    (onPath_enter h.base h.mem h.fresh).2 (.inl hs)
  kept _ s := by
    unfold DfsState.enter
    rw [switchClusterMap_modify]
  low d l d' _ _ hs hs₀ hdone := by
    have hv := ((visited_enter h.base h.mem).1 hs).resolve_left hs₀
    cases hdone hv

/-- A switch that was open when the call began is still open. -/
theorem Progress.isOpen (h : t.Progress st₀ v done st) (hS : t.LoopState st₀ v p i₀ done i st)
    (h₀ : t.Entry st₀ v p i₀) {s : Dpid} (hs : st₀.Open s) : st.Open s := by
  rcases hs.onPath_or with hon | hcur
  · exact ((hS.onPath_iff h₀).2 (.inl hon)).isOpen
  · refine ⟨hS.visited h₀ (.inl hs.1), ?_⟩
    rw [h.kept (List.ne_nil_of_mem hcur)]
    exact hs.2

/-- A switch that was in the current set when the call began is still there. -/
theorem Progress.mem_currSet (h : t.Progress st₀ v done st) (hS : t.LoopState st₀ v p i₀ done i st)
    (h₀ : t.Entry st₀ v p i₀) {s : Dpid} (hs : s ∈ st₀.currSet) : s ∈ st.currSet := by
  have hopen : st₀.Open s := h₀.base.curr s hs
  rcases (h.isOpen hS h₀ hopen).onPath_or with hon | hcur
  · rcases (hS.onPath_iff h₀).1 hon with hon | rfl
    · exact absurd hs hon.2.1
    · exact absurd hopen.1 h₀.fresh
  · exact hcur

/-- The index of a switch that was open when the call began. -/
theorem LoopState.dfsIndex_eq (hS : t.LoopState st₀ v p i₀ done i st) (h₀ : t.Entry st₀ v p i₀)
    {s : Dpid} (hs : st₀.Visited s) {d d' : ClusterDFS} (hd : st.dfsList.get s = some d)
    (hd' : st₀.dfsList.get s = some d') : d.dfsIndex = d'.dfsIndex := by
  have hne : s ≠ v := fun e => h₀.fresh (e ▸ hs)
  obtain ⟨d₁, hd₁, hv⟩ := hs
  obtain rfl := Option.some.inj (hd₁.symm.trans hd')
  have hge : (st₀.enter v p i₀).dfsList.get s = some d₁ := by rw [get_enter, if_neg hne, hd₁]
  obtain ⟨low, hlow, -⟩ := hS.ext.data s d₁ hge hv
  obtain rfl := Option.some.inj (hlow.symm.trans hd)
  rfl

theorem Progress.add (h : t.Progress st₀ v done st)
    (hl : t.domainGraph.IsEdge l → l.src = v → st₀.Open l.dst → ∀ d d',
      st.dfsList.get v = some d → st₀.dfsList.get l.dst = some d' → d.lowpoint ≤ d'.dfsIndex) :
    t.Progress st₀ v (done ++ [l]) st where
  tarjan := h.tarjan
  kept := h.kept
  low d l' d' hd hl' hs hs₀ hdone hopen hd' := by
    by_cases he : l' = l ∧ l'.src = v
    · exact hl (he.1 ▸ hl') (he.1 ▸ he.2) (he.1 ▸ hopen) d d' hd (he.1 ▸ hd')
    · refine h.low d l' d' hd hl' hs hs₀ (fun hv => ?_) hopen hd'
      rcases List.mem_append.1 (hdone hv) with hmem | hmem
      · exact hmem
      · exact absurd ⟨List.mem_singleton.1 hmem, hv⟩ he

theorem Progress.lower (h : t.Progress st₀ v done st) (x : WithTop ℤ) :
    t.Progress st₀ v done (st.lower v x) where
  tarjan := h.tarjan.congr (switchClusterMap_modify _ _ _) (currSet_modify _ _ _) fun s hs =>
    ((Extends.lower st v x).onPath s).2 hs
  kept hne s := by
    unfold DfsState.lower
    rw [switchClusterMap_modify]
    exact h.kept hne s
  low d l d' hd hl hs hs₀ hdone hopen hd' := by
    rw [get_lower, if_pos rfl] at hd
    obtain ⟨d₁, hd₁, rfl⟩ := Option.map_eq_some_iff.1 hd
    exact (min_le_left _ _).trans (h.low d₁ l d' hd₁ hl (visited_lower.1 hs) hs₀ hdone hopen hd')

/-- The call for `l.dst` is made from the end of the path. -/
theorem Progress.ready (h : t.Progress st₀ v done st) (hS : t.LoopState st₀ v p i₀ done i st)
    (h₀ : t.Entry st₀ v p i₀) (hR : t.Ready st₀ v p) (hl : t.domainGraph.IsEdge l)
    (hsrc : l.src = v) : t.Ready st l.dst i₀ where
  tarjan := h.tarjan
  reaches z hz := by
    have hedge : t.domainGraph.Reaches v l.dst := hsrc ▸ Multigraph.Reaches.edge hl
    rcases (hS.onPath_iff h₀).1 hz with hz | rfl
    · exact (hR.reaches z hz).trans hedge
    · exact hedge
  le z d hz hd := by
    rcases (hS.onPath_iff h₀).1 hz with hz | rfl
    · obtain ⟨d', hd', -⟩ := hz.1
      rw [hS.dfsIndex_eq h₀ hz.1 hd hd']
      exact (hR.le z d' hz hd').trans h₀.parent.le
    · obtain ⟨low, hlow⟩ := hS.get h₀
      obtain rfl := Option.some.inj (hlow.symm.trans hd)
      exact le_rfl

/-- The loop goes on after a call for `l.dst` that kept the invariant. -/
theorem Progress.visit (h : t.Progress st₀ v done st) (hS : t.LoopState st₀ v p i₀ done i st)
    (h₀ : t.Entry st₀ v p i₀) (hI : t.Indexed) (hy : ¬st.Visited l.dst)
    (hexit : ExitState ord t st l.dst i₀ i i' st')
    (hsub : t.Progress st l.dst (t.linksOf ord l.dst) st') {d : ClusterDFS}
    (hd : st'.dfsList.get l.dst = some d) :
    t.Progress st₀ v (done ++ [l]) (st'.lower v d.lowpoint) where
  tarjan := hsub.tarjan.congr (switchClusterMap_modify _ _ _) (currSet_modify _ _ _) fun s hs =>
    ((Extends.lower st' v _).onPath s).2 hs
  kept hne s := by
    obtain ⟨x, hx⟩ := List.exists_mem_of_ne_nil _ hne
    unfold DfsState.lower
    rw [switchClusterMap_modify, hsub.kept (List.ne_nil_of_mem (h.mem_currSet hS h₀ hx)) s]
    exact h.kept hne s
  low d₂ l' d' hd₂ hl' hs hs₀ hdone hopen hd' := by
    rw [get_lower, if_pos rfl] at hd₂
    obtain ⟨d₁, hd₁, rfl⟩ := Option.map_eq_some_iff.1 hd₂
    have hs := visited_lower.1 hs
    have hopen' := h.isOpen hS h₀ hopen
    by_cases hst : st.Visited l'.src
    · -- the switch was entered in the loop before this call
      obtain ⟨dv, hdv, hdvv⟩ := hS.visited h₀ (.inr rfl)
      obtain ⟨low, hlow, heq⟩ := hexit.ext.data v dv hdv hdvv
      obtain rfl := heq (by simp)
      obtain rfl := Option.some.inj (hlow.symm.trans hd₁)
      refine (min_le_left _ _).trans (h.low _ l' d' hdv hl' hst hs₀ (fun hv => ?_) hopen hd')
      rcases List.mem_append.1 (hdone hv) with hmem | hmem
      · exact hmem
      · exact absurd (List.mem_singleton.1 hmem ▸ hopen'.1) hy
    · obtain ⟨d'', hd'', -⟩ := hopen'.1
      rw [← hS.dfsIndex_eq h₀ hopen.1 hd'' hd']
      refine (min_le_right _ _).trans (hsub.low d l' d'' hd hl' hs hst (fun hv => ?_) hopen' hd'')
      exact hv ▸ hI.mem_linksOf hl'

/-! ## The end of a call -/

/-- Over switches not entered before the call, the call has come everywhere. -/
theorem LoopState.visited_of_white (hS : t.LoopState st₀ v p i₀ (t.linksOf ord v) i st)
    (h₀ : t.Entry st₀ v p i₀) (hI : t.Indexed) {w : Dpid} (hw : t.White st₀ v w) :
    st.Visited w ∧ ¬st₀.Visited w := by
  induction hw with
  | refl => exact ⟨hS.visited h₀ (.inr rfl), h₀.fresh⟩
  | tail _ hstep ih =>
    obtain ⟨⟨e, he, rfl, rfl⟩, hfresh⟩ := hstep
    exact ⟨hS.explored.leads e he ih.1 ih.2 fun hv => hv ▸ hI.mem_linksOf he, hfresh⟩

/-- A way to the path leaves the switches not entered before the call at an open switch. -/
theorem Ready.escapes (hR : t.Ready st₀ v p) (hcur : st₀.currSet = [])
    {a z : Dpid} (hr : t.domainGraph.Reaches a z) (hz : st₀.OnPath z) :
    t.White st₀ v a → ¬st₀.Visited a → t.Escapes st₀ v p := by
  induction hr using Relation.ReflTransGen.head_induction_on with
  | refl => exact fun _ ha => absurd hz.1 ha
  | head hadj hr ih =>
    obtain ⟨e, he, rfl, rfl⟩ := hadj
    intro hw ha
    by_cases hb : st₀.Visited (t.domainGraph.dst e)
    · have hnone : st₀.switchClusterMap.get e.dst = none := by
        cases hk : st₀.switchClusterMap.get e.dst with
        | none => rfl
        | some k =>
          have hsome := hR.tarjan.closed_reaches hr (Option.isSome_iff_exists.2 ⟨k, hk⟩)
          rw [hz.2.2] at hsome
          cases hsome
      have hopen : st₀.Open e.dst := ⟨hb, hnone⟩
      have hon : st₀.OnPath e.dst := by
        rcases hopen.onPath_or with hon | hmem
        · exact hon
        · rw [hcur] at hmem
          cases hmem
      obtain ⟨d, hd, -⟩ := hb
      exact ⟨e, d, he, hw, hd, hopen, hR.le _ d hon hd⟩
    · exact ih (Relation.ReflTransGen.tail hw ⟨⟨e, he, rfl, rfl⟩, hb⟩) hb

/-- The lowpoint is above the index of the parent exactly if there is no way back. -/
theorem Progress.escapes_iff (h : t.Progress st₀ v (t.linksOf ord v) st)
    (hS : t.LoopState st₀ v p i₀ (t.linksOf ord v) i st) (h₀ : t.Entry st₀ v p i₀) (hI : t.Indexed)
    {low : WithTop ℤ} (hlow : st.dfsList.get v = some ⟨i₀, p, low, true⟩) :
    t.Escapes st₀ v p ↔ low ≤ p := by
  constructor
  · rintro ⟨l, d, hl, hw, hd, hopen, hle⟩
    obtain ⟨hs, hs₀⟩ := hS.visited_of_white h₀ hI hw
    exact (h.low _ l d hlow hl hs hs₀ (fun hv => hv ▸ hI.mem_linksOf hl) hopen hd).trans hle
  · exact fun hle => hS.explored.low _ p hlow le_rfl hle

/-- The switches of the cluster that a call closes, when there is no way back and the call found the
current set empty: they were entered in the call, and lie on cycles with its switch. -/
theorem Progress.closing (h : t.Progress st₀ v (t.linksOf ord v) st)
    (hS : t.LoopState st₀ v p i₀ (t.linksOf ord v) i st) (h₀ : t.Entry st₀ v p i₀)
    (hR : t.Ready st₀ v p) (hcur : st₀.currSet = []) (hesc : ¬t.Escapes st₀ v p) {s : Dpid}
    (hs : s ∈ st.currSet ∨ s = v) : st.Visited s ∧ ¬st₀.Visited s ∧
      st.switchClusterMap.get s = none ∧ t.domainGraph.Mutual s v := by
  rcases hs with hs | rfl
  · obtain ⟨hvis, hnone⟩ := hS.base.curr s hs
    have hfresh : ¬st₀.Visited s := by
      intro hv
      have hopen : st₀.Open s := by
        refine ⟨hv, ?_⟩
        cases hk : st₀.switchClusterMap.get s with
        | none => rfl
        | some k =>
          rw [hS.cluster hk] at hnone
          cases hnone
      rcases hopen.onPath_or with hon | hmem
      · exact ((hS.onPath_iff h₀).2 (.inl hon)).2.1 hs
      · rw [hcur] at hmem
        cases hmem
    refine ⟨hvis, hfresh, hnone, ?_⟩
    obtain ⟨z, hz, hm⟩ := h.tarjan.curr s hs
    rcases (hS.onPath_iff h₀).1 hz with hz | rfl
    · exact absurd (hR.escapes hcur hm.1 hz (hS.explored.white s hvis hfresh) hfresh) hesc
    · exact hm
  · have hon : st.OnPath s := (hS.onPath_iff h₀).2 (.inr rfl)
    exact ⟨hon.1, h₀.fresh, hon.2.2, .refl s⟩

/-- The cluster that is closed at the end of a call is a component. -/
theorem Progress.tarjan_close (h : t.Progress st₀ v (t.linksOf ord v) st)
    (hS : t.LoopState st₀ v p i₀ (t.linksOf ord v) i st) (h₀ : t.Entry st₀ v p i₀) (hI : t.Indexed)
    (hR : t.Ready st₀ v p) (hcur : st₀.currSet = []) (hesc : ¬t.Escapes st₀ v p)
    (hcl : ∀ s, st'.switchClusterMap.get s = if s ∈ st.currSet ∨ s = v then
      some st.clusters.length else st.switchClusterMap.get s) (hnil : st'.currSet = []) :
    t.Tarjan st' := by
  have hin : ∀ {s}, s ∈ st.currSet ∨ s = v →
      st'.switchClusterMap.get s = some st.clusters.length := fun hs => (hcl _).trans (if_pos hs)
  have hout : ∀ {s}, ¬(s ∈ st.currSet ∨ s = v) →
      st'.switchClusterMap.get s = st.switchClusterMap.get s := fun hs => (hcl _).trans (if_neg hs)
  have hnew : ∀ {s}, s ∈ st.currSet ∨ s = v → st.Visited s ∧ ¬st₀.Visited s ∧
      st.switchClusterMap.get s = none ∧ t.domainGraph.Mutual s v :=
    fun hs => h.closing hS h₀ hR hcur hesc hs
  have hold : ∀ {s k}, st.switchClusterMap.get s = some k →
      ¬(s ∈ st.currSet ∨ s = v) ∧ st'.switchClusterMap.get s = some k := by
    intro s k hk
    have hs : ¬(s ∈ st.currSet ∨ s = v) := by
      intro hs
      rw [(hnew hs).2.2.1] at hk
      cases hk
    exact ⟨hs, (hout hs).trans hk⟩
  -- links out of the new cluster lead to clusters
  have hclosed : ∀ l, t.domainGraph.IsEdge l → (st'.switchClusterMap.get l.src).isSome →
      (st'.switchClusterMap.get l.dst).isSome := by
    intro l hl hsrc
    by_cases hdst : l.dst ∈ st.currSet ∨ l.dst = v
    · rw [hin hdst]
      rfl
    · rw [hout hdst]
      by_cases hs : l.src ∈ st.currSet ∨ l.src = v
      · obtain ⟨hvis, hfresh, -, -⟩ := hnew hs
        have hv : st.Visited l.dst :=
          hS.explored.leads l hl hvis hfresh fun e => e ▸ hI.mem_linksOf hl
        cases hk : st.switchClusterMap.get l.dst with
        | some k => rfl
        | none =>
          have hopen : st.Open l.dst := ⟨hv, hk⟩
          rcases hopen.onPath_or with hon | hmem
          · rcases (hS.onPath_iff h₀).1 hon with hon | e
            · obtain ⟨d, hd, -⟩ := hon.1
              exact absurd ⟨l, d, hl, hS.explored.white _ hvis hfresh, hd, hon.isOpen,
                hR.le _ d hon hd⟩ hesc
            · exact absurd (.inr e) hdst
          · exact absurd (.inl hmem) hdst
      · rw [hout hs] at hsrc
        exact h.tarjan.closed l hl hsrc
  have hreach : ∀ {s s'}, t.domainGraph.Reaches s s' → (st'.switchClusterMap.get s).isSome →
      (st'.switchClusterMap.get s').isSome := by
    intro s s' hr hs
    induction hr with
    | refl => exact hs
    | tail _ hadj ih =>
      obtain ⟨e, he, rfl, rfl⟩ := hadj
      exact hclosed e he ih
  refine ⟨hclosed, fun s s' k hk => ?_, fun s hs => ?_⟩
  · by_cases hs : s ∈ st.currSet ∨ s = v
    · obtain rfl := Option.some.inj ((hin hs).symm.trans hk)
      constructor
      · intro hk'
        by_cases hs' : s' ∈ st.currSet ∨ s' = v
        · exact (hnew hs).2.2.2.trans (hnew hs').2.2.2.symm
        · rw [hout hs'] at hk'
          exact absurd (hS.base.divided.lt s' _ hk') (lt_irrefl _)
      · intro hm
        obtain ⟨k', hk'⟩ := Option.isSome_iff_exists.1
          (hreach hm.1 (Option.isSome_iff_exists.2 ⟨_, hk⟩))
        by_cases hs' : s' ∈ st.currSet ∨ s' = v
        · exact hin hs'
        · rw [hout hs'] at hk'
          have hk₂ := (h.tarjan.exact s' s k' hk').2 hm.symm
          rw [(hnew hs).2.2.1] at hk₂
          cases hk₂
    · rw [hout hs] at hk
      constructor
      · intro hk'
        by_cases hs' : s' ∈ st.currSet ∨ s' = v
        · obtain rfl := Option.some.inj ((hin hs').symm.trans hk')
          exact absurd (hS.base.divided.lt s _ hk) (lt_irrefl _)
        · rw [hout hs'] at hk'
          exact (h.tarjan.exact s s' k hk).1 hk'
      · exact fun hm => (hold ((h.tarjan.exact s s' k hk).2 hm)).2
  · rw [hnil] at hs
    cases hs

/-- At the end of a call with a way back, the switches of the current set still lie on cycles with
switches of the path. -/
theorem Progress.tarjan_leave (h : t.Progress st₀ v (t.linksOf ord v) st)
    (hS : t.LoopState st₀ v p i₀ (t.linksOf ord v) i st) (h₀ : t.Entry st₀ v p i₀)
    (hR : t.Ready st₀ v p) (hesc : t.Escapes st₀ v p) : t.Tarjan (st.leave v) where
  closed := h.tarjan.closed
  exact := h.tarjan.exact
  curr := by
    -- the way back makes a cycle of `v` and a switch of the path
    obtain ⟨z, hz, hm⟩ : ∃ z, st₀.OnPath z ∧ t.domainGraph.Mutual v z := by
      obtain ⟨l, d, hl, hw, hd, hopen, -⟩ := hesc
      obtain ⟨z, hz, hlz⟩ : ∃ z, st₀.OnPath z ∧ t.domainGraph.Mutual l.dst z := by
        rcases hopen.onPath_or with hon | hmem
        · exact ⟨l.dst, hon, .refl _⟩
        · exact hR.tarjan.curr _ hmem
      exact ⟨z, hz, (hw.reaches.trans (Multigraph.Reaches.edge hl)).trans hlz.1, hR.reaches z hz⟩
    have hpath : ∀ z, st₀.OnPath z → (st.leave v).OnPath z := fun z hz =>
      onPath_leave.2 ⟨(hS.onPath_iff h₀).2 (.inl hz), fun e => h₀.fresh (e ▸ hz.1)⟩
    intro s hs
    rcases (mem_setAdd _).1 hs with hs | rfl
    · obtain ⟨z', hz', hm'⟩ := h.tarjan.curr s hs
      rcases (hS.onPath_iff h₀).1 hz' with hz' | rfl
      · exact ⟨z', hpath z' hz', hm'⟩
      · exact ⟨z, hpath z hz, hm'.trans hm⟩
    · exact ⟨z, hpath z hz, hm⟩

/-- A good call keeps the invariant. -/
theorem Progress.finish (h : t.Progress st₀ v (t.linksOf ord v) st)
    (hS : t.LoopState st₀ v p i₀ (t.linksOf ord v) i st) (h₀ : t.Entry st₀ v p i₀) (hI : t.Indexed)
    (hR : t.Ready st₀ v p) (hgood : st₀.currSet = [] ∨ t.Escapes st₀ v p) {low : WithTop ℤ}
    (hlow : st.dfsList.get v = some ⟨i₀, p, low, true⟩) :
    t.Progress st₀ v (t.linksOf ord v) (finish ord st v ⟨i₀, p, low, true⟩) := by
  have hiff := h.escapes_iff hS h₀ hI hlow
  obtain ⟨-, -, hlist, -⟩ := finish_spec hS.base ((hS.onPath_iff h₀).2 (.inr rfl))
    ⟨i₀, p, low, true⟩
  have hvis : ∀ s, (TopologyInstance.finish ord st v ⟨i₀, p, low, true⟩).Visited s ↔ st.Visited s := by
    intro s
    unfold Visited
    rw [hlist]
  have hcl := switchClusterMap_finish ord st v ⟨i₀, p, low, true⟩
  refine ⟨?_, ?_, ?_⟩
  · by_cases hle : low ≤ p
    · have he : TopologyInstance.finish ord st v ⟨i₀, p, low, true⟩ = st.leave v :=
        if_neg (not_lt.2 hle)
      rw [he]
      exact h.tarjan_leave hS h₀ hR (hiff.2 hle)
    · have hesc : ¬t.Escapes st₀ v p := fun he => hle (hiff.1 he)
      have hp : p < low := not_le.1 hle
      refine h.tarjan_close hS h₀ hI hR (hgood.resolve_right hesc) hesc (fun s => ?_) ?_
      · rw [hcl]
        exact if_congr ⟨fun hs => hs.2, fun hs => ⟨hp, hs⟩⟩ rfl rfl
      · unfold TopologyInstance.finish
        rw [if_pos hp]
        rfl
  · intro hne s
    have hle : low ≤ p := hiff.1 (hgood.resolve_left hne)
    rw [hcl, if_neg fun hs => absurd hs.1 (not_lt.2 hle)]
    exact h.kept hne s
  · intro d l d' hd hl hs
    rw [hlist] at hd
    exact h.low d l d' hd hl ((hvis _).1 hs)

/-- A call that is not good does damage: it closes a cluster with a switch that was in the current
set before, and lies on a cycle with a switch of the path. -/
theorem LoopState.damaged (hS : t.LoopState st₀ v p i₀ (t.linksOf ord v) i st)
    (h₀ : t.Entry st₀ v p i₀) (hR : t.Ready st₀ v p)
    (hbad : ¬(st₀.currSet = [] ∨ t.Escapes st₀ v p)) {low : WithTop ℤ}
    (hlow : st.dfsList.get v = some ⟨i₀, p, low, true⟩) :
    t.Damaged (finish ord st v ⟨i₀, p, low, true⟩) := by
  rw [not_or] at hbad
  obtain ⟨x, hx⟩ := List.exists_mem_of_ne_nil _ hbad.1
  obtain ⟨z, hz, hm⟩ := hR.tarjan.curr x hx
  have hp : p < low := by
    by_contra hle
    exact hbad.2 (hS.explored.low _ p hlow le_rfl (not_lt.1 hle))
  have hcl := switchClusterMap_finish ord st v ⟨i₀, p, low, true⟩
  have hz' : (finish ord st v ⟨i₀, p, low, true⟩).switchClusterMap.get z = none := by
    have hon : st.OnPath z := (hS.onPath_iff h₀).2 (.inl hz)
    rw [hcl, if_neg, hon.2.2]
    rintro ⟨-, hmem | rfl⟩
    · exact hon.2.1 hmem
    · exact h₀.fresh hz.1
  -- the switch is in a cluster before the end of the call, or still in the current set
  obtain ⟨k, hk⟩ : ∃ k, (finish ord st v ⟨i₀, p, low, true⟩).switchClusterMap.get x = some k := by
    rw [hcl]
    cases hk : st.switchClusterMap.get x with
    | some k =>
      split_ifs
      · exact ⟨_, rfl⟩
      · exact ⟨k, rfl⟩
    | none =>
      have hopen : st.Open x := ⟨hS.visited h₀ (.inl (h₀.base.curr x hx).1), hk⟩
      have hmem : x ∈ st.currSet := by
        rcases hopen.onPath_or with hon | hmem
        · rcases (hS.onPath_iff h₀).1 hon with hon | rfl
          · exact absurd hx hon.2.1
          · exact absurd (h₀.base.curr _ hx).1 h₀.fresh
        · exact hmem
      exact ⟨_, if_pos ⟨hp, .inl hmem⟩⟩
  refine ⟨x, z, k, hk, ?_, hm⟩
  rw [hz']
  simp

/-! ## Calls and the calls they make -/

/-- The call and all the calls made in it are good. -/
def DfsCall.AllGood (ord : HashOrder) (t : TopologyInstance) (c : DfsCall) : Prop :=
  ∀ c', Relation.ReflTransGen (DfsCall.Makes ord t) c c' → c'.Good t

theorem DfsCall.allGood_iff {c : DfsCall} :
    c.AllGood ord t ↔ c.Good t ∧ ∀ c', c.Makes ord t c' → c'.AllGood ord t := by
  constructor
  · intro h
    exact ⟨h c .refl, fun c' hc' c'' hc'' => h c'' (.head hc' hc'')⟩
  · rintro ⟨hg, h⟩ c'' hc''
    rcases Relation.ReflTransGen.cases_head hc'' with rfl | ⟨c', hc', hrest⟩
    · exact hg
    · exact h c' hc' c'' hrest

/-- What the loop of the call `c` has come to after the links `done`. -/
def LoopVerdict (ord : HashOrder) (t : TopologyInstance) (c : DfsCall) (done : List Link)
    (st : DfsState) : Prop :=
  ((∀ pre c', c.MakesAfter ord t pre c' → pre.length < done.length → c'.AllGood ord t) ∧
      t.Progress c.st c.sw done st) ∨
    ((∃ c', c.Makes ord t c' ∧ ¬c'.AllGood ord t) ∧ t.Damaged st)

/-- What a call comes to. -/
def CallVerdict (ord : HashOrder) (t : TopologyInstance) (c : DfsCall) (st : DfsState) : Prop :=
  (c.AllGood ord t ∧ t.Progress c.st c.sw (t.linksOf ord c.sw) st) ∨
    (¬c.AllGood ord t ∧ t.Damaged st)

/-- The call made at a link is determined by the state in which the loop comes to it. -/
theorem LoopAt.makesAfter {c c' : DfsCall} {fuel : ℕ} {pre pre' : List Link}
    (hat : t.LoopAt (t.dfsTraverse ord fuel) c.sw (t.linksOf ord c.sw) (c.currIndex + 1)
      (c.st.enter c.sw c.parentIndex c.currIndex) pre l i st) (hf : c.fuel = fuel + 1)
    (hm : c.MakesAfter ord t pre' c') (hlen : pre'.length = pre.length) :
    ¬t.Skips c.sw l st ∧ ¬st.Visited l.dst ∧
      ∃ d, st.dfsList.get c.sw = some d ∧ c' = ⟨fuel, d.dfsIndex, i, l.dst, st⟩ := by
  cases hm with
  | visit fuel' post' l' i' st' d hf' hlinks hr hskip hd hv =>
    obtain ⟨post, hpost⟩ := hat.split
    obtain rfl : fuel' = fuel := by omega
    obtain ⟨rfl, hcons⟩ := List.append_inj (hlinks.symm.trans hpost) hlen
    obtain ⟨rfl, -⟩ := List.cons.inj hcons
    obtain ⟨rfl, rfl⟩ := Prod.mk.inj (Option.some.inj (hr.symm.trans hat.come))
    exact ⟨hskip, hv, d, hd, rfl⟩

theorem LoopAt.allGood_append {c : DfsCall} {fuel : ℕ} {pre : List Link}
    (hat : t.LoopAt (t.dfsTraverse ord fuel) c.sw (t.linksOf ord c.sw) (c.currIndex + 1)
      (c.st.enter c.sw c.parentIndex c.currIndex) pre l i st) (hf : c.fuel = fuel + 1)
    (h : ∀ pre' c', c.MakesAfter ord t pre' c' → pre'.length < pre.length → c'.AllGood ord t)
    (hnew : ¬t.Skips c.sw l st → ¬st.Visited l.dst → ∀ d, st.dfsList.get c.sw = some d →
      (⟨fuel, d.dfsIndex, i, l.dst, st⟩ : DfsCall).AllGood ord t) :
    ∀ pre' c', c.MakesAfter ord t pre' c' → pre'.length < (pre ++ [l]).length →
      c'.AllGood ord t := by
  intro pre' c' hm hlen
  rw [List.length_append, List.length_singleton] at hlen
  by_cases hlt : pre'.length < pre.length
  · exact h pre' c' hm hlt
  · obtain ⟨hskip, hv, d, hd, rfl⟩ := hat.makesAfter hf hm (by omega)
    exact hnew hskip hv d hd

theorem Damaged.lower (h : t.Damaged st) (v : Dpid) (x : WithTop ℤ) : t.Damaged (st.lower v x) := by
  unfold Damaged DfsState.lower
  rw [switchClusterMap_modify]
  exact h

theorem Damaged.exit (h : t.Damaged st₀) (h₀ : t.Entry st₀ v p i₀)
    (hexit : ExitState ord t st₀ v p i₀ i st) : t.Damaged st :=
  h.mono h₀.base hexit.ext.cluster hexit.explored.later

/-- The loop of a call, when the calls that it makes come to their verdicts. -/
theorem Entry.loopVerdict (h₀ : t.Entry st₀ v p i₀) (hI : t.Indexed) (hR : t.Ready st₀ v p)
    {fuel : ℕ} (hn : (st₀.unvisited t.switches).card < fuel + 1)
    (hcall : ∀ v p i st i' st', t.Entry st v p i → (st.unvisited t.switches).card < fuel →
      t.Ready st v p → t.dfsTraverse ord fuel p i v st = some (i', st') →
      CallVerdict ord t ⟨fuel, p, i, v, st⟩ st') :
    ∀ pre post, t.linksOf ord v = pre ++ post →
      ∃ i st, t.dfsLinks (t.dfsTraverse ord fuel) v pre (i₀ + 1) (st₀.enter v p i₀) = some (i, st) ∧
        LoopVerdict ord t ⟨fuel + 1, p, i₀, v, st₀⟩ pre st := by
  have hstate : ∀ {pre l i st}, t.LoopAt (t.dfsTraverse ord fuel) v (t.linksOf ord v) (i₀ + 1)
      (st₀.enter v p i₀) pre l i st → t.LoopState st₀ v p i₀ pre i st := by
    intro pre l i st hat
    obtain ⟨post, hpost⟩ := hat.split
    obtain ⟨i', st', hr, hS⟩ := h₀.loop hI (dfsTraverse_exit hI fuel) hn pre (l :: post) hpost
    obtain ⟨rfl, rfl⟩ := Prod.mk.inj (Option.some.inj (hr.symm.trans hat.come))
    exact hS
  refine dfsLinks_rule ?_ ?_ ?_ ?_ ?_ ?_
  · exact .inl ⟨fun pre c' _ hlen => absurd hlen (Nat.not_lt_zero _), h₀.progress hR⟩
  · intro pre l i st hat _
    have hS := hstate hat
    obtain ⟨low, hlow⟩ := hS.get h₀
    have hdst := hI.filed.dst_mem_of_linksOf hat.mem
    exact ⟨(lt_trans h₀.pos hS.lt).le, ⟨_, hlow⟩,
      Option.isSome_iff_exists.1 ((hS.base.known _).2 hdst)⟩
  · intro pre l i st hat hV hskip
    have hS := hstate hat
    rcases hV with ⟨hall, hP⟩ | hV
    · refine .inl ⟨hat.allGood_append rfl hall fun h => absurd hskip h, hP.add ?_⟩
      intro hedge _ hopen
      -- an open switch outside the path of the call is not passed over
      exfalso
      rcases hskip with e | hk | hb | hb
      · exact h₀.fresh (e ▸ hopen.1)
      · rw [(hP.isOpen hS h₀ hopen).2] at hk
        cases hk
      · rw [hedge.2.1] at hb
        cases hb
      · rw [hedge.2.2] at hb
        cases hb
    · exact .inr hV
  · intro pre l i st c d hat hV hskip hc hd hlt
    have hS := hstate hat
    rcases hV with ⟨hall, hP⟩ | ⟨hbad, hD⟩
    · have hopen : st.Open l.dst := open_of_lt hS.base hskip hd hlt
      refine .inl ⟨hat.allGood_append rfl hall fun _ h => absurd hopen.1 h,
        (hP.lower d.dfsIndex).add ?_⟩
      intro _ _ hopen₀ d₁ d' hd₁ hd'
      rw [get_lower, if_pos rfl, hc] at hd₁
      obtain rfl := Option.some.inj hd₁
      rw [← hS.dfsIndex_eq h₀ hopen₀.1 hd hd']
      exact min_le_right _ _
    · exact .inr ⟨hbad, hD.lower v _⟩
  · intro pre l i st c d hat hV hskip hc hd hv
    have hS := hstate hat
    obtain ⟨hedge, hsrc⟩ := hI.filed.edge_of_not_skips hat.mem hskip
    have hy : ¬st.Visited l.dst := not_visited hd hv
    obtain ⟨low, hlow⟩ := hS.get h₀
    obtain rfl := Option.some.inj (hlow.symm.trans hc)
    have hentry := hS.entry h₀ (hI.dst_mem hedge) hy
    obtain ⟨i', st', hr, hexit⟩ := dfsTraverse_exit hI fuel l.dst i₀ i st hentry
      (h₀.card_lt hn hS)
    obtain ⟨d', hd', -⟩ := hexit.visited
    refine ⟨i', st', d', hr, ?_, hd', ?_⟩
    · have h₁ := h₀.pos
      have h₂ := hS.lt
      have h₃ := hexit.le
      omega
    · rcases hV with ⟨hall, hP⟩ | ⟨hbad, hD⟩
      · rcases hcall l.dst i₀ i st i' st' hentry (h₀.card_lt hn hS)
          (hP.ready hS h₀ hR hedge hsrc) hr with ⟨hgood, hsub⟩ | ⟨hbad, hD⟩
        · refine .inl ⟨hat.allGood_append rfl hall fun _ _ d₁ hd₁ => ?_,
            hP.visit hS h₀ hI hy hexit hsub hd'⟩
          obtain rfl := Option.some.inj (hlow.symm.trans hd₁)
          exact hgood
        · obtain ⟨post, hpost⟩ := hat.split
          exact .inr ⟨⟨_, ⟨pre, .visit fuel post l i st _ rfl hpost hat.come hskip hlow hy⟩, hbad⟩,
            hD.lower v _⟩
      · exact .inr ⟨hbad, (hD.exit hentry hexit).lower v _⟩
  · intro pre l i st c d hat hV hskip hc hd hlt hv
    have hS := hstate hat
    rcases hV with ⟨hall, hP⟩ | hV
    · refine .inl ⟨hat.allGood_append rfl hall fun _ h => absurd ⟨d, hd, hv⟩ h, hP.add ?_⟩
      intro _ _ hopen d₁ d' _ hd'
      obtain ⟨low, hlow⟩ := hS.get h₀
      obtain rfl := Option.some.inj (hlow.symm.trans hc)
      rw [hS.dfsIndex_eq h₀ hopen.1 hd hd'] at hlt
      exact absurd (h₀.indexLt _ d' hd' hopen) hlt
    · exact .inr hV

/-- Every call is good through and through and keeps the invariant, or it does damage. -/
theorem callVerdict (hI : t.Indexed) (fuel : ℕ) :
    ∀ v p i st i' st', t.Entry st v p i → (st.unvisited t.switches).card < fuel →
      t.Ready st v p → t.dfsTraverse ord fuel p i v st = some (i', st') →
      CallVerdict ord t ⟨fuel, p, i, v, st⟩ st' := by
  induction fuel with
  | zero =>
    intro v p i st i' st' _ hn
    omega
  | succ fuel ih =>
    intro v p i st₀ i' st' h₀ hn hR hr
    have hnil := (List.append_nil (t.linksOf ord v)).symm
    obtain ⟨j, st, hl, hV⟩ := h₀.loopVerdict hI hR hn ih _ [] hnil
    obtain ⟨j', st₁, hl', hS⟩ := h₀.loop hI (dfsTraverse_exit hI fuel) hn _ [] hnil
    obtain ⟨rfl, rfl⟩ := Prod.mk.inj (Option.some.inj (hl'.symm.trans hl))
    obtain ⟨low, hlow, hcall⟩ := h₀.dfsTraverse_eq hl hS
    obtain ⟨-, rfl⟩ := Prod.mk.inj (Option.some.inj (hr.symm.trans hcall))
    rcases hV with ⟨hall, hP⟩ | ⟨⟨c', hc', hbad⟩, hD⟩
    · have hmade : ∀ c', (⟨fuel + 1, p, i, v, st₀⟩ : DfsCall).Makes ord t c' → c'.AllGood ord t := by
        rintro c' ⟨pre, hm⟩
        refine hall pre c' hm ?_
        cases hm with
        | visit _ post l _ _ _ _ hlinks =>
          rw [hlinks, List.length_append, List.length_cons]
          omega
      by_cases hgood : (⟨fuel + 1, p, i, v, st₀⟩ : DfsCall).Good t
      · exact .inl ⟨DfsCall.allGood_iff.2 ⟨hgood, hmade⟩, hP.finish hS h₀ hI hR hgood hlow⟩
      · exact .inr ⟨fun h => hgood (DfsCall.allGood_iff.1 h).1, hS.damaged h₀ hR hgood hlow⟩
    · refine .inr ⟨fun h => hbad ((DfsCall.allGood_iff.1 h).2 c' hc'), ?_⟩
      obtain ⟨-, -, -, hcl⟩ := finish_spec hS.base ((hS.onPath_iff h₀).2 (.inr rfl))
        ⟨i, p, low, true⟩
      refine hD.mono hS.base hcl fun s k hs hk => ?_
      rw [switchClusterMap_finish, hs] at hk
      split_ifs at hk
      exact (Option.some.inj hk).le

/-! ## All the roots -/

theorem dfsRoots_append (pre post : List Dpid) :
    ∀ st : DfsState, t.dfsRoots ord (pre ++ post) st =
      (t.dfsRoots ord pre st).bind (t.dfsRoots ord post) := by
  induction pre with
  | nil => exact fun _ => rfl
  | cons sw pre ih =>
    intro st
    rw [List.cons_append, dfsRoots, dfsRoots]
    cases st.dfsList.get sw with
    | none => exact ih st
    | some d =>
      dsimp only
      split_ifs
      · cases t.dfsTraverse ord (t.switches.length + 1) (0 : ℤ) 1 sw st with
        | none => rfl
        | some r => exact ih r.2
      · exact ih st

theorem idle_entry (hI : st.Idle t.switches) (hsw : v ∈ t.switches) (hv : ¬st.Visited v) :
    t.Entry st v (0 : ℤ) 1 where
  base := hI.base
  mem := hsw
  fresh := hv
  pos := one_pos
  parent := WithTop.coe_lt_coe.2 one_pos
  indexLt s d _ hopen := by
    rcases hopen.onPath_or with hon | hmem
    · exact absurd hon (hI.onPath s)
    · rw [hI.currSet] at hmem
      cases hmem

theorem idle_ready (hI : st.Idle t.switches) (hT : t.Tarjan st) : t.Ready st v p where
  tarjan := hT
  reaches z hz := absurd hz (hI.onPath z)
  le z _ hz := absurd hz (hI.onPath z)

theorem card_unvisited_lt (st : DfsState) :
    (st.unvisited t.switches).card < t.switches.length + 1 :=
  Nat.lt_succ_of_le (card_unvisited_le _)

/-- The state in which the loop of `identifyOpenflowDomains` comes to the next switch. -/
theorem dfsRoots_idle (hI : t.Indexed) (hN : t.New) {pre post : List Dpid}
    (hsplit : ord.iter t.switches = pre ++ post) :
    ∃ st, t.dfsRoots ord pre (t.dfsInit ord) = some st ∧ st.Idle t.switches ∧
      ∀ s ∈ pre, st.Visited s := by
  obtain ⟨st, hr, hidle, -, hall⟩ := dfsRoots_spec hI.filed pre (fun s hs => by
    rw [← HashOrder.mem_iter ord, hsplit]
    exact List.mem_append_left _ hs) _ (idle_dfsInit hN)
  exact ⟨st, hr, hidle, hall⟩

/-- What the loop of `identifyOpenflowDomains` has come to after the switches `pre`. -/
def RootVerdict (ord : HashOrder) (t : TopologyInstance) (pre : List Dpid) (st : DfsState) : Prop :=
  ((∀ pre' c, t.RootAfter ord pre' c → pre'.length < pre.length → c.AllGood ord t) ∧ t.Tarjan st) ∨
    ((∃ pre' c, t.RootAfter ord pre' c ∧ ¬c.AllGood ord t) ∧ t.Damaged st)

theorem rootVerdict (hI : t.Indexed) (hN : t.New) (pre : List Dpid) :
    ∀ post st, ord.iter t.switches = pre ++ post →
      t.dfsRoots ord pre (t.dfsInit ord) = some st → RootVerdict ord t pre st := by
  induction pre using List.reverseRecOn with
  | nil =>
    intro post st _ hr
    obtain rfl := Option.some.inj hr
    refine .inl ⟨fun _ _ _ hlen => absurd hlen (Nat.not_lt_zero _), ?_⟩
    have hnone : ∀ s, (t.dfsInit ord).switchClusterMap.get s = none := by
      intro s
      show t.switchClusterMap.get s = none
      rw [hN.switchClusterMap]
      rfl
    refine ⟨fun l _ h => ?_, fun s s' k h => ?_, fun s hs => ?_⟩
    · rw [hnone] at h
      cases h
    · rw [hnone] at h
      cases h
    · cases hs
  | append_singleton pre sw ih =>
    intro post st' hsplit hr'
    rw [List.append_assoc, List.singleton_append] at hsplit
    obtain ⟨st, hr, hidle, -⟩ := dfsRoots_idle hI hN hsplit
    have hV := ih (sw :: post) st hsplit hr
    have hsw : sw ∈ t.switches := by
      rw [← HashOrder.mem_iter ord, hsplit]
      exact List.mem_append_right _ List.mem_cons_self
    obtain ⟨d, hd⟩ := Option.isSome_iff_exists.1 ((hidle.base.known sw).2 hsw)
    rw [dfsRoots_append, hr, Option.bind_some, dfsRoots, hd] at hr'
    dsimp only at hr'
    -- the call made at `sw`, if there is one
    have hlast : ∀ pre' c, t.RootAfter ord pre' c → pre'.length < (pre ++ [sw]).length →
        pre'.length < pre.length ∨ ¬st.Visited sw ∧
          c = ⟨t.switches.length + 1, (0 : ℤ), 1, sw, st⟩ := by
      intro pre' c hc hlen
      rw [List.length_append, List.length_singleton] at hlen
      by_cases hlt : pre'.length < pre.length
      · exact .inl hlt
      · cases hc with
        | root post' sw' st₁ hsplit' hr₁ hv =>
          obtain ⟨rfl, hcons⟩ := List.append_inj (hsplit'.symm.trans hsplit) (by omega)
          obtain ⟨rfl, -⟩ := List.cons.inj hcons
          obtain rfl := Option.some.inj (hr₁.symm.trans hr)
          exact .inr ⟨hv, rfl⟩
    split_ifs at hr' with hv
    · have hv' : ¬st.Visited sw := not_visited hd hv
      have hentry := idle_entry hidle hsw hv'
      obtain ⟨i, st₁, hcall, hexit⟩ := dfsTraverse_exit hI _ sw (0 : ℤ) 1 st hentry
        (card_unvisited_lt st)
      rw [hcall, Option.bind_eq_bind, Option.bind_some] at hr'
      obtain rfl : st₁ = st' := Option.some.inj hr'
      rcases hV with ⟨hall, hT⟩ | ⟨hbad, hD⟩
      · rcases callVerdict hI _ sw (0 : ℤ) 1 st i st₁ hentry (card_unvisited_lt st)
          (idle_ready hidle hT) hcall with ⟨hgood, hP⟩ | ⟨hbad, hD⟩
        · refine .inl ⟨fun pre' c hc hlen => ?_, hP.tarjan⟩
          rcases hlast pre' c hc hlen with hlt | ⟨-, rfl⟩
          · exact hall pre' c hc hlt
          · exact hgood
        · exact .inr ⟨⟨pre, _, .root post sw st hsplit hr hv', hbad⟩, hD⟩
      · exact .inr ⟨hbad, hD.exit hentry hexit⟩
    · obtain rfl : st = st' := Option.some.inj hr'
      rcases hV with ⟨hall, hT⟩ | hV
      · refine .inl ⟨fun pre' c hc hlen => ?_, hT⟩
        rcases hlast pre' c hc hlen with hlt | ⟨hnv, -⟩
        · exact hall pre' c hc hlt
        · exact absurd ⟨d, hd, by simpa using hv⟩ hnv
      · exact .inr hV

/-! ## The clusters found -/

theorem mem_switches_of_reaches (hI : t.Indexed) {s s' : Dpid} (hs : s ∈ t.switches)
    (hr : t.domainGraph.Reaches s s') : s' ∈ t.switches := by
  rcases Relation.ReflTransGen.cases_tail hr with rfl | ⟨u, -, e, he, -, rfl⟩
  · exact hs
  · exact hI.dst_mem he

/-- Where the search ends: every switch is in a cluster, and the search comes to its verdict. -/
theorem Computed.verdict {queue : NodeQueue} {t' : TopologyInstance}
    (hC : Computed ord queue t t') (hI : t.Indexed) (hN : t.New) :
    ∃ st, t'.switchClusterMap = st.switchClusterMap ∧ st.Idle t.switches ∧
      (∀ s ∈ t.switches, ∃ k, st.switchClusterMap.get s = some k) ∧
      RootVerdict ord t (ord.iter t.switches) st := by
  obtain ⟨st, hr, hmap⟩ := hC.roots
  have hnil := (List.append_nil (ord.iter t.switches)).symm
  obtain ⟨st₁, hr₁, hidle, hall⟩ := dfsRoots_idle hI hN hnil
  obtain rfl := Option.some.inj (hr₁.symm.trans hr)
  refine ⟨st₁, hmap, hidle, fun s hs => ?_, rootVerdict hI hN _ [] _ hnil hr⟩
  cases hk : st₁.switchClusterMap.get s with
  | some k => exact ⟨k, rfl⟩
  | none =>
    have hopen : st₁.Open s := ⟨hall s ((HashOrder.mem_iter ord).2 hs), hk⟩
    rcases hopen.onPath_or with hon | hmem
    · exact absurd hon (hidle.onPath s)
    · rw [hidle.currSet] at hmem
      cases hmem

/-- As long as every call is good, the clusters are the components. -/
theorem Computed.components {queue : NodeQueue} {t' : TopologyInstance}
    (hC : Computed ord queue t t') (hI : t.Indexed) (hN : t.New)
    (hgood : ∀ c, t.CallMade ord c → c.Good t) :
    ∀ s ∈ t.switches, ∀ s' ∈ t.switches,
      t'.switchClusterMap.get s = t'.switchClusterMap.get s' ↔ t.domainGraph.Mutual s s' := by
  obtain ⟨st, hmap, -, hall, hV⟩ := hC.verdict hI hN
  intro s hs s' _
  obtain ⟨k, hk⟩ := hall s hs
  rcases hV with ⟨-, hT⟩ | ⟨⟨pre, c₀, hc₀, hbad⟩, -⟩
  · rw [hmap, ← hT.exact s s' k hk, hk]
    exact eq_comm
  · exact absurd (fun c hc => hgood c ⟨pre, c₀, hc₀, hc⟩) hbad

/-- If the clusters are the components, no call has done damage. -/
theorem Computed.good {queue : NodeQueue} {t' : TopologyInstance}
    (hC : Computed ord queue t t') (hI : t.Indexed) (hN : t.New)
    (hcomp : ∀ s ∈ t.switches, ∀ s' ∈ t.switches,
      t'.switchClusterMap.get s = t'.switchClusterMap.get s' ↔ t.domainGraph.Mutual s s') :
    ∀ c, t.CallMade ord c → c.Good t := by
  obtain ⟨st, hmap, hidle, -, hV⟩ := hC.verdict hI hN
  rcases hV with ⟨hgood, -⟩ | ⟨-, s, s', k, hs, hs', hm⟩
  · rintro c ⟨pre, c₀, hc₀, hc⟩
    refine hgood pre c₀ hc₀ ?_ c hc
    cases hc₀ with
    | root post sw st hsplit =>
      rw [hsplit, List.length_append, List.length_cons]
      omega
  · have hmem : s ∈ t.switches := by
      obtain ⟨d, hd, -⟩ := hidle.base.clustered s k hs
      rw [← hidle.base.known, hd]
      rfl
    have he := (hcomp s hmem s' (mem_switches_of_reaches hI hmem hm.1)).2 hm
    rw [hmap] at he
    exact absurd (he.symm.trans hs) hs'

/-- **The clusters are the strongly connected components exactly if every call of `dfsTraverse` finds
the current set empty or has a way back to a switch that was entered no later than its parent.** -/
theorem clusters_eq_components_iff (ord : HashOrder) (queue : NodeQueue) (t t' : TopologyInstance)
    (hI : t.Indexed) (hN : t.New) (h : t.compute ord queue = some t') :
    (∀ s ∈ t.switches, ∀ s' ∈ t.switches,
      t'.switchClusterMap.get s = t'.switchClusterMap.get s' ↔ t.domainGraph.Mutual s s') ↔
      ∀ c, t.CallMade ord c → c.Good t := by
  obtain ⟨t₁, ht₁, hC⟩ := compute_spec ord queue hI.filed hN
  obtain rfl := Option.some.inj (ht₁.symm.trans h)
  exact ⟨hC.good hI hN, hC.components hI hN⟩

/-- Links from switch 1 to switch 2 and back, and a one-way link from switch 1 to switch 3. -/
def oneWay : TopologyInstance :=
  ofLinks [⟨1, 1, 2, 1⟩, ⟨1, 3, 3, 1⟩, ⟨2, 2, 1, 2⟩] []

theorem clusters_eq_components_iff_oneWay : ∃ t', oneWay.compute .insertion (.following []) = some t' ∧
    ((∀ s ∈ oneWay.switches, ∀ s' ∈ oneWay.switches,
      t'.switchClusterMap.get s = t'.switchClusterMap.get s' ↔ oneWay.domainGraph.Mutual s s') ↔
      ∀ c, oneWay.CallMade .insertion c → c.Good oneWay) := by
  obtain ⟨t', h, -⟩ := compute_spec .insertion (.following []) indexed_ofLinks.filed new_ofLinks
  exact ⟨t', h, clusters_eq_components_iff .insertion (.following []) oneWay t' indexed_ofLinks
    new_ofLinks h⟩

/-- Switch 2 joins the current set, as it leads back to switch 1, and is put into the cluster that
is closed for switch 3, from which no link leads anywhere. -/
theorem clusters_ne_components_oneWay : ∃ t', oneWay.compute .insertion (.following []) = some t' ∧
    ¬∀ s ∈ oneWay.switches, ∀ s' ∈ oneWay.switches,
      t'.switchClusterMap.get s = t'.switchClusterMap.get s' ↔ oneWay.domainGraph.Mutual s s' := by
  obtain ⟨t', h, -⟩ := compute_spec .insertion (.following []) indexed_ofLinks.filed new_ofLinks
  have hmap : (oneWay.compute .insertion (.following [])).map (fun t' =>
      (t'.switchClusterMap.get 2, t'.switchClusterMap.get 3)) = some (some 0, some 0) := by decide
  refine ⟨t', h, fun hcomp => ?_⟩
  rw [show oneWay.compute .insertion (.following []) = some t' from h] at hmap
  obtain ⟨h₂, h₃⟩ := Prod.mk.inj (Option.some.inj hmap)
  have hmutual := (hcomp 2 (mem_switches_ofLinks.2 ⟨⟨1, 1, 2, 1⟩, by simp⟩) 3
    (mem_switches_ofLinks.2 ⟨⟨1, 3, 3, 1⟩, by simp⟩)).1 (h₂.trans h₃.symm)
  obtain ⟨es, hes⟩ := hmutual.2.exists_walk
  obtain ⟨l, -, hl, hsrc, -⟩ := hes.exists_edge (by decide)
  have hno : ∀ l ∈ ([⟨1, 1, 2, 1⟩, ⟨1, 3, 3, 1⟩, ⟨2, 2, 1, 2⟩] : List Link), l.src ≠ 3 := by decide
  exact hno l (isEdge_ofLinks.1 hl) hsrc

/-! ## Links in both directions -/

/-- The state of the loop in which a call is made. -/
theorem DfsCall.MakesAfter.inLoop {c c' : DfsCall} {pre : List Link} (hm : c.MakesAfter ord t pre c')
    (hI : t.Indexed) (h₀ : t.Entry c.st c.sw c.parentIndex c.currIndex)
    (hn : (c.st.unvisited t.switches).card < c.fuel) :
    ∃ l, t.domainGraph.IsEdge l ∧ l.src = c.sw ∧ l.dst = c'.sw ∧ ¬c'.st.Visited c'.sw ∧
      c.fuel = c'.fuel + 1 ∧ c'.parentIndex = c.currIndex ∧
      t.LoopState c.st c.sw c.parentIndex c.currIndex pre c'.currIndex c'.st := by
  cases hm with
  | visit fuel post l i st d hf hlinks hr hskip hd hv =>
    have hl : l ∈ t.linksOf ord c.sw := by
      rw [hlinks]
      exact List.mem_append_right _ List.mem_cons_self
    obtain ⟨hedge, hsrc⟩ := hI.filed.edge_of_not_skips hl hskip
    rw [hf] at hn
    obtain ⟨i', st', hr', hS⟩ := h₀.loop hI (dfsTraverse_exit hI fuel) hn pre (l :: post) hlinks
    obtain ⟨rfl, rfl⟩ := Prod.mk.inj (Option.some.inj (hr'.symm.trans hr))
    obtain ⟨low, hlow⟩ := hS.get h₀
    obtain rfl := Option.some.inj (hlow.symm.trans hd)
    exact ⟨l, hedge, hsrc, rfl, hv, hf, rfl, hS⟩

/-- Every call that is made finds a state of the search. -/
theorem CallMade.entry (hI : t.Indexed) (hN : t.New) {c : DfsCall} (hc : t.CallMade ord c) :
    t.Entry c.st c.sw c.parentIndex c.currIndex ∧ (c.st.unvisited t.switches).card < c.fuel := by
  obtain ⟨pre, c₀, hc₀, hmade⟩ := hc
  induction hmade with
  | refl =>
    cases hc₀ with
    | root post sw st hsplit hr hv =>
      obtain ⟨st₁, hr₁, hidle, -⟩ := dfsRoots_idle hI hN hsplit
      obtain rfl := Option.some.inj (hr₁.symm.trans hr)
      have hsw : sw ∈ t.switches := by
        rw [← HashOrder.mem_iter ord, hsplit]
        exact List.mem_append_right _ List.mem_cons_self
      exact ⟨idle_entry hidle hsw hv, card_unvisited_lt st₁⟩
  | @tail c₁ c₂ _ hmakes ih =>
    obtain ⟨pre', hm⟩ := hmakes
    obtain ⟨h₀, hn⟩ := ih
    obtain ⟨l, hedge, -, hdst, hv, hfuel, hparent, hS⟩ := hm.inLoop hI h₀ hn
    rw [hfuel] at hn
    rw [hparent, ← hdst]
    exact ⟨hS.entry h₀ (hI.dst_mem hedge) (hdst ▸ hv), h₀.card_lt hn hS⟩

/-- Where links have a way back, the clusters are the components. -/
theorem Computed.components_of_reverse {queue : NodeQueue} {t' : TopologyInstance}
    (hC : Computed ord queue t t') (hI : t.Indexed) (hN : t.New)
    (hrev : ∀ l, t.domainGraph.IsEdge l → ∃ l', t.domainGraph.IsEdge l' ∧ l'.src = l.dst ∧
      l'.dst = l.src) :
    ∀ s ∈ t.switches, ∀ s' ∈ t.switches,
      t'.switchClusterMap.get s = t'.switchClusterMap.get s' ↔ t.domainGraph.Mutual s s' := by
  refine hC.components hI hN fun c hc => ?_
  obtain ⟨pre, c₀, hc₀, hmade⟩ := hc
  rcases Relation.ReflTransGen.cases_tail hmade with rfl | ⟨c₁, hmade₁, pre', hm⟩
  · -- a root finds the current set empty
    cases hc₀ with
    | root post sw st hsplit hr hv =>
      obtain ⟨st₁, hr₁, hidle, -⟩ := dfsRoots_idle hI hN hsplit
      obtain rfl := Option.some.inj (hr₁.symm.trans hr)
      exact .inl hidle.currSet
  · obtain ⟨h₀, hn⟩ := CallMade.entry hI hN ⟨pre, c₀, hc₀, hmade₁⟩
    obtain ⟨l, hedge, hsrc, hdst, hv, -, hparent, hS⟩ := hm.inLoop hI h₀ hn
    obtain ⟨l', hl', hsrc', hdst'⟩ := hrev l hedge
    obtain ⟨low, hlow⟩ := hS.get h₀
    refine .inr ⟨l', ⟨c₁.currIndex, c₁.parentIndex, low, true⟩, hl', ?_, ?_, ?_, hparent.ge⟩
    · rw [hsrc', hdst]
      exact Relation.ReflTransGen.refl
    · rw [hdst', hsrc]
      exact hlow
    · rw [hdst', hsrc]
      exact ((hS.onPath_iff h₀).2 (.inr rfl)).isOpen

/-! ## Links inside a cluster -/

section Links

variable {queue : NodeQueue} {t' : TopologyInstance} {c : Cluster}

theorem Computed.usable_iff (hC : Computed ord queue t t') (hI : t.Indexed) (l : Link) :
    t'.Usable l ↔ t.domainGraph.IsEdge l := by
  unfold Usable isBlockedLink isBroadcastDomainLink isBlockedPort isBroadcastDomainPort
  rw [hC.switchPorts, hC.switchPortLinks, hC.blockedPorts, hC.broadcastDomainPorts]
  refine and_congr_left fun _ => ?_
  constructor
  · rintro ⟨s, p, -, h⟩
    exact ⟨_, h⟩
  · rintro ⟨npt, h⟩
    obtain ⟨hhas, hport⟩ := hI.both npt l h l.srcNpt (by simp)
    exact ⟨_, _, hport, hhas⟩

/-- The links of a cluster are the links between its switches. -/
theorem Computed.hasLink_iff (hC : Computed ord queue t t') (hI : t.Indexed)
    (hc : c ∈ t'.clusters) (l : Link) :
    c.HasLink l ↔ t.domainGraph.IsEdge l ∧ l.src ∈ c.getNodes ∧ l.dst ∈ c.getNodes := by
  obtain ⟨k, hk⟩ := List.mem_iff_getElem?.1 hc
  have hmem : ∀ v, v ∈ c.getNodes ↔ t'.switchClusterMap.get v = some k :=
    hC.filled.domains.mem_iff k c hk
  unfold Cluster.HasLink
  rw [hC.filled.has_iff k c hk, hC.usable_iff hI, hmem, hmem]
  simp

/-- Where links have a way back, the switches of a cluster reach each other inside the cluster. -/
theorem Computed.reaches (hC : Computed ord queue t t') (hI : t.Indexed) (hN : t.New)
    (hrev : ∀ l, t.domainGraph.IsEdge l → ∃ l', t.domainGraph.IsEdge l' ∧ l'.src = l.dst ∧
      l'.dst = l.src) (hc : c ∈ t'.clusters) {u v : Dpid} (hu : u ∈ c.getNodes)
    (hv : v ∈ c.getNodes) : c.graph.Reaches u v := by
  have hcomp := hC.components_of_reverse hI hN hrev
  obtain ⟨k, hk⟩ := List.mem_iff_getElem?.1 hc
  have hmem : ∀ v, v ∈ c.getNodes ↔ t'.switchClusterMap.get v = some k :=
    hC.filled.domains.mem_iff k c hk
  have hsw : ∀ {v}, v ∈ c.getNodes → v ∈ t.switches := by
    intro v hv
    rw [← hC.switches]
    exact hC.filled.mem_switches hc hv
  have hm : t.domainGraph.Mutual u v :=
    (hcomp u (hsw hu) v (hsw hv)).1 (((hmem u).1 hu).trans ((hmem v).1 hv).symm)
  -- the switches on the way are in the component of `v`
  have hin : ∀ x, t.domainGraph.Mutual x v → x ∈ c.getNodes := by
    intro x hx
    have hxs : x ∈ t.switches := mem_switches_of_reaches hI (hsw hv) hx.2
    rw [hmem, (hcomp x hxs v (hsw hv)).2 hx]
    exact (hmem v).1 hv
  suffices h : t.domainGraph.Reaches v u → c.graph.Reaches u v from h hm.2
  refine Relation.ReflTransGen.head_induction_on
    (motive := fun x _ => t.domainGraph.Reaches v x → c.graph.Reaches x v) hm.1
    (fun _ => .refl v) ?_
  rintro x y ⟨e, he, rfl, rfl⟩ hy ih hx
  have hedge := Multigraph.Reaches.edge he
  have hlink : c.HasLink e := (hC.hasLink_iff hI hc e).2
    ⟨he, hin _ ⟨hedge.trans hy, hx⟩, hin _ ⟨hy, hx.trans hedge⟩⟩
  exact (Multigraph.Reaches.edge (G := c.graph) hlink).trans (ih (hx.trans hedge))

end Links

end TopologyInstance

end Torpedo
