import Mathlib.Data.Finset.Card
import Torpedo.Topology.Instance

/-!
# The depth-first search

What a call of `dfsTraverse` leaves alone and what it adds, whatever the links are: it always
returns, switches that were on the search path stay there, and every switch it enters ends in a
cluster or in the current set. Hence `identifyOpenflowDomains` returns and divides the switches
into clusters.
-/

namespace Torpedo

/-! ## Maps filled by a loop -/

theorem HashMap.get_foldl_put {κ ν : Type} [DecidableEq κ] (v : ν) (ks : List κ) (m : HashMap κ ν)
    (k : κ) : (ks.foldl (HashMap.put · · v) m).get k = if k ∈ ks then some v else m.get k := by
  induction ks generalizing m with
  | nil => simp
  | cons k' ks ih =>
    rw [List.foldl_cons, ih, HashMap.get_put]
    by_cases hk : k ∈ ks
    · simp [hk]
    · by_cases hk' : k = k' <;> simp [hk, hk']

/-! ## Clusters -/

namespace Cluster

@[simp] theorem getNodes_empty : empty.getNodes = [] := rfl

theorem get_add (c : Cluster) (n k : Dpid) :
    (c.add n).links.get k =
      if k = n then some ((c.links.get n).getD []) else c.links.get k := by
  unfold add HashMap.containsKey
  cases h : c.links.get n with
  | none => simp [HashMap.get_put]
  | some s =>
    by_cases hk : k = n
    · simp [hk, h]
    · simp [hk]

theorem mem_getNodes_add {c : Cluster} {n k : Dpid} :
    k ∈ (c.add n).getNodes ↔ k ∈ c.getNodes ∨ k = n := by
  unfold getNodes
  rw [HashMap.mem_keySet, HashMap.mem_keySet, get_add]
  by_cases hk : k = n <;> simp [hk]

/-- The id of a cluster is the lowest of its nodes. -/
structure LowestId (c : Cluster) : Prop where
  le : ∀ n ∈ c.getNodes, c.id ≤ n
  mem : c.id ∈ c.getNodes ∨ c.id = Int64.maxValue

theorem LowestId.empty : Cluster.empty.LowestId := ⟨by simp, .inr rfl⟩

theorem LowestId.add {c : Cluster} (h : c.LowestId) (n : Dpid) : (c.add n).LowestId := by
  have hid : (c.add n).id = c.id ∨ (c.add n).id = n ∧ n < c.id := by
    unfold Cluster.add
    split_ifs with h₁ h₂
    · exact .inr ⟨rfl, h₂⟩
    · exact .inl rfl
    · exact .inl rfl
  have hle : (c.add n).id ≤ n := by
    unfold Cluster.add
    split_ifs with h₁ h₂
    · exact Int64.le_refl n
    · exact Int64.not_lt.1 h₂
    · refine h.le n (HashMap.mem_keySet _ |>.2 ?_)
      unfold HashMap.containsKey at h₁
      rwa [Bool.not_eq_false] at h₁
  constructor
  · intro k hk
    rcases mem_getNodes_add.1 hk with hk | rfl
    · rcases hid with e | ⟨e, hlt⟩
      · rw [e]; exact h.le k hk
      · rw [e]; exact Int64.le_trans (Int64.le_of_lt hlt) (h.le k hk)
    · exact hle
  · rw [mem_getNodes_add]
    rcases hid with e | ⟨e, -⟩
    · rw [e]; exact h.mem.imp_left .inl
    · exact .inl (.inr e)

theorem LowestId.id_mem {c : Cluster} (h : c.LowestId) (hne : c.getNodes ≠ []) :
    c.id ∈ c.getNodes := by
  rcases h.mem with hm | hm
  · exact hm
  · obtain ⟨n, hn⟩ := List.exists_mem_of_ne_nil _ hne
    have hle := h.le n hn
    rw [hm, Int64.maxValue_le_iff] at hle
    rw [hm, ← hle]; exact hn

theorem mem_getNodes_foldl_add (l : List Dpid) (c : Cluster) (n : Dpid) :
    n ∈ (l.foldl Cluster.add c).getNodes ↔ n ∈ c.getNodes ∨ n ∈ l := by
  induction l generalizing c with
  | nil => simp
  | cons a l ih => rw [List.foldl_cons, ih, mem_getNodes_add, List.mem_cons, or_assoc]

theorem LowestId.foldl_add {c : Cluster} (h : c.LowestId) (l : List Dpid) :
    (l.foldl Cluster.add c).LowestId := by
  induction l generalizing c with
  | nil => exact h
  | cons a l ih => exact ih (h.add a)

/-- No link has been added to the cluster yet. -/
def NoLinks (c : Cluster) : Prop := ∀ n, c.links.get n = none ∨ c.links.get n = some []

theorem NoLinks.add {c : Cluster} (h : c.NoLinks) (n : Dpid) : (c.add n).NoLinks := by
  intro k
  rw [get_add]
  split_ifs with hk
  · right
    rcases h n with e | e <;> simp [e]
  · exact h k

theorem NoLinks.foldl_add {c : Cluster} (h : c.NoLinks) (l : List Dpid) :
    (l.foldl Cluster.add c).NoLinks := by
  induction l generalizing c with
  | nil => exact h
  | cons a l ih => exact ih (h.add a)

end Cluster

/-! ## States of the search -/

namespace DfsState

variable (st : DfsState)

theorem get_modify (sw s : Dpid) (f : ClusterDFS → ClusterDFS) :
    (st.modify sw f).dfsList.get s =
      if s = sw then (st.dfsList.get s).map f else st.dfsList.get s := by
  unfold modify
  cases h : st.dfsList.get sw with
  | none =>
    by_cases hs : s = sw
    · rw [if_pos hs, hs, h]; rfl
    · rw [if_neg hs]
  | some d =>
    by_cases hs : s = sw
    · rw [if_pos hs, hs, h]; exact HashMap.get_put_self _ _ _
    · rw [if_neg hs]; exact (HashMap.get_put _ _ _ _).trans (if_neg hs)

@[simp] theorem currSet_modify (sw : Dpid) (f : ClusterDFS → ClusterDFS) :
    (st.modify sw f).currSet = st.currSet := by unfold modify; split <;> rfl

@[simp] theorem clusters_modify (sw : Dpid) (f : ClusterDFS → ClusterDFS) :
    (st.modify sw f).clusters = st.clusters := by unfold modify; split <;> rfl

@[simp] theorem switchClusterMap_modify (sw : Dpid) (f : ClusterDFS → ClusterDFS) :
    (st.modify sw f).switchClusterMap = st.switchClusterMap := by unfold modify; split <;> rfl

/-- The switch has been entered. -/
def Visited (s : Dpid) : Prop := ∃ d, st.dfsList.get s = some d ∧ d.visited = true

/-- The switch is on the search path: it has been entered and is in no cluster and not in the
current set. -/
def OnPath (s : Dpid) : Prop :=
  st.Visited s ∧ s ∉ st.currSet ∧ st.switchClusterMap.get s = none

/-- The switches of the clusters are those that the cluster map takes there. -/
structure Divided : Prop where
  lt : ∀ s k, st.switchClusterMap.get s = some k → k < st.clusters.length
  mem_iff : ∀ k c, st.clusters[k]? = some c →
    ∀ s, s ∈ c.getNodes ↔ st.switchClusterMap.get s = some k
  nonempty : ∀ c ∈ st.clusters, c.getNodes ≠ []
  lowestId : ∀ c ∈ st.clusters, c.LowestId
  noLinks : ∀ c ∈ st.clusters, c.NoLinks

/-- What holds in every state of the search over the switches `S`. -/
structure Base (S : List Dpid) : Prop where
  known : ∀ s, (st.dfsList.get s).isSome ↔ s ∈ S
  fresh : ∀ s d, st.dfsList.get s = some d → d.visited = false → d.dfsIndex = ⊤ ∧ d.lowpoint = ⊤
  pos : ∀ s d, st.dfsList.get s = some d → (0 : ℤ) < d.dfsIndex ∧ (0 : ℤ) < d.lowpoint
  curr : ∀ s ∈ st.currSet, st.Visited s ∧ st.switchClusterMap.get s = none
  clustered : ∀ s k, st.switchClusterMap.get s = some k → st.Visited s
  nodup : st.currSet.Nodup
  divided : st.Divided

/-- `st'` comes after `st` in a search that has come back to the same path. The DFS objects of
entered switches are the same, but for the lowpoint of `v`. -/
structure Extends (v : Option Dpid) (st st' : DfsState) : Prop where
  visited : ∀ s, st.Visited s → st'.Visited s
  onPath : ∀ s, st'.OnPath s ↔ st.OnPath s
  cluster : ∀ s k, st.switchClusterMap.get s = some k → st'.switchClusterMap.get s = some k
  data : ∀ s d, st.dfsList.get s = some d → d.visited = true →
    ∃ low, st'.dfsList.get s = some { d with lowpoint := low } ∧ (some s ≠ v → low = d.lowpoint)

theorem Extends.refl (v : Option Dpid) (st : DfsState) : Extends v st st :=
  ⟨fun _ h => h, fun _ => .rfl, fun _ _ h => h, fun _ d h _ => ⟨d.lowpoint, h, fun _ => rfl⟩⟩

theorem Extends.trans {v : Option Dpid} {st₁ st₂ st₃ : DfsState} (h₁ : Extends v st₁ st₂)
    (h₂ : Extends v st₂ st₃) : Extends v st₁ st₃ where
  visited s hs := h₂.visited s (h₁.visited s hs)
  onPath s := (h₂.onPath s).trans (h₁.onPath s)
  cluster s k hs := h₂.cluster s k (h₁.cluster s k hs)
  data s d hs hd := by
    obtain ⟨low₁, e₁, hl₁⟩ := h₁.data s d hs hd
    obtain ⟨low₂, e₂, hl₂⟩ := h₂.data s _ e₁ hd
    exact ⟨low₂, e₂, fun hv => (hl₂ hv).trans (hl₁ hv)⟩

theorem Extends.weaken {st st' : DfsState} (h : Extends none st st') (v : Option Dpid) :
    Extends v st st' where
  visited := h.visited
  onPath := h.onPath
  cluster := h.cluster
  data s d hs hd := by
    obtain ⟨low, e, hl⟩ := h.data s d hs hd
    exact ⟨low, e, fun _ => hl (by simp)⟩

/-- The switches that have not been entered. -/
noncomputable def unvisited (S : List Dpid) : Finset Dpid := by
  classical exact S.toFinset.filter fun s => ¬st.Visited s

variable {st}

theorem mem_unvisited {S : List Dpid} {s : Dpid} :
    s ∈ st.unvisited S ↔ s ∈ S ∧ ¬st.Visited s := by
  classical
  unfold unvisited
  rw [Finset.mem_filter, List.mem_toFinset]

theorem card_unvisited_le (S : List Dpid) : (st.unvisited S).card ≤ S.length := by
  classical
  calc (st.unvisited S).card ≤ S.toFinset.card :=
        Finset.card_le_card fun s hs => List.mem_toFinset.2 (mem_unvisited.1 hs).1
    _ ≤ S.length := List.toFinset_card_le S

theorem Extends.card_unvisited_le {v : Option Dpid} {st' : DfsState} (h : Extends v st st')
    (S : List Dpid) : (st'.unvisited S).card ≤ (st.unvisited S).card := by
  refine Finset.card_le_card fun s hs => ?_
  obtain ⟨hS, hv⟩ := mem_unvisited.1 hs
  exact mem_unvisited.2 ⟨hS, fun hv' => hv (h.visited s hv')⟩

theorem visited_modify_iff {sw : Dpid} {f : ClusterDFS → ClusterDFS}
    (hf : ∀ d, (f d).visited = d.visited) {s : Dpid} :
    (st.modify sw f).Visited s ↔ st.Visited s := by
  unfold Visited
  rw [get_modify]
  split_ifs with hs
  · cases st.dfsList.get s <;> simp [hf]
  · rfl

/-- Changes of a DFS object that keep the base invariant. -/
theorem Base.modify {S : List Dpid} (h : st.Base S) {sw : Dpid} {f : ClusterDFS → ClusterDFS}
    (hv : ∀ d, d.visited = true → (f d).visited = true)
    (hf : ∀ d, st.dfsList.get sw = some d → (f d).visited = true ∧
      (0 : ℤ) < (f d).dfsIndex ∧ (0 : ℤ) < (f d).lowpoint) :
    (st.modify sw f).Base S := by
  have hvis : ∀ s, st.Visited s → (st.modify sw f).Visited s := by
    rintro s ⟨d, hd, hd'⟩
    unfold Visited
    rw [get_modify, hd]
    split_ifs
    · exact ⟨f d, rfl, hv d hd'⟩
    · exact ⟨d, rfl, hd'⟩
  constructor
  · intro s
    rw [get_modify, ← h.known]
    split_ifs <;> simp
  · intro s d hd hd'
    rw [get_modify] at hd
    split_ifs at hd with hs
    · subst hs
      obtain ⟨d₀, hd₀, rfl⟩ := Option.map_eq_some_iff.1 hd
      exact absurd (hf d₀ hd₀).1 (by rw [hd']; simp)
    · exact h.fresh s d hd hd'
  · intro s d hd
    rw [get_modify] at hd
    split_ifs at hd with hs
    · subst hs
      obtain ⟨d₀, hd₀, rfl⟩ := Option.map_eq_some_iff.1 hd
      exact (hf d₀ hd₀).2
    · exact h.pos s d hd
  · intro s hs
    rw [currSet_modify] at hs
    rw [switchClusterMap_modify]
    exact ⟨hvis s (h.curr s hs).1, (h.curr s hs).2⟩
  · intro s k hs
    rw [switchClusterMap_modify] at hs
    exact hvis s (h.clustered s k hs)
  · rw [currSet_modify]; exact h.nodup
  · obtain ⟨h₁, h₂, h₃, h₄, h₅⟩ := h.divided
    constructor
    all_goals simpa only [clusters_modify, switchClusterMap_modify]

/-! ### Lowering a lowpoint -/

theorem get_lower (sw s : Dpid) (x : WithTop ℤ) :
    (st.lower sw x).dfsList.get s = if s = sw then
      (st.dfsList.get s).map fun d => { d with lowpoint := min d.lowpoint x }
    else st.dfsList.get s := by
  unfold lower
  rw [get_modify]
  split_ifs with hs
  · congr 1
    funext d
    split_ifs with hx
    · rw [min_eq_right hx.le]
    · rw [min_eq_left (not_lt.1 hx)]
  · rfl

theorem Base.lower {S : List Dpid} (h : st.Base S) {sw : Dpid} (hsw : st.Visited sw)
    {x : WithTop ℤ} (hx : (0 : ℤ) < x) : (st.lower sw x).Base S := by
  refine h.modify ?_ ?_
  · intro d hd
    split_ifs <;> exact hd
  · intro d hd
    obtain ⟨d', hd', hv⟩ := hsw
    obtain rfl := Option.some.inj (hd.symm.trans hd')
    split_ifs
    · exact ⟨hv, (h.pos sw d hd).1, hx⟩
    · exact ⟨hv, h.pos sw d hd⟩

theorem visited_lower {sw s : Dpid} {x : WithTop ℤ} :
    (st.lower sw x).Visited s ↔ st.Visited s :=
  visited_modify_iff fun d => by split_ifs <;> rfl

theorem Extends.lower (st : DfsState) (sw : Dpid) (x : WithTop ℤ) :
    Extends (some sw) st (st.lower sw x) where
  visited _ hs := visited_lower.2 hs
  onPath s := by
    unfold OnPath
    rw [visited_lower]
    unfold DfsState.lower
    rw [currSet_modify, switchClusterMap_modify]
  cluster s k hs := by
    unfold DfsState.lower
    rw [switchClusterMap_modify]; exact hs
  data s d hs hd := by
    rw [get_lower]
    split_ifs with he
    · refine ⟨min d.lowpoint x, ?_, fun hn => absurd (congrArg some he) hn⟩
      rw [hs]; rfl
    · exact ⟨d.lowpoint, hs, fun _ => rfl⟩

/-! ### Entering a switch -/

theorem get_enter (sw s : Dpid) (parentIndex : WithTop ℤ) (currIndex : ℤ) :
    (st.enter sw parentIndex currIndex).dfsList.get s = if s = sw then
      (st.dfsList.get s).map fun d =>
        ⟨currIndex, parentIndex, d.lowpoint, true⟩
    else st.dfsList.get s := get_modify st sw s _

theorem Base.enter {S : List Dpid} (h : st.Base S) {sw : Dpid} {parentIndex : WithTop ℤ}
    {currIndex : ℤ} (hi : 0 < currIndex) : (st.enter sw parentIndex currIndex).Base S := by
  refine h.modify (fun _ _ => rfl) fun d hd => ⟨rfl, ?_, (h.pos sw d hd).2⟩
  exact WithTop.coe_lt_coe.2 hi

theorem visited_enter {S : List Dpid} (h : st.Base S) {sw s : Dpid} (hsw : sw ∈ S)
    {parentIndex : WithTop ℤ} {currIndex : ℤ} :
    (st.enter sw parentIndex currIndex).Visited s ↔ st.Visited s ∨ s = sw := by
  unfold Visited
  rw [get_enter]
  split_ifs with hs
  · obtain ⟨d, hd⟩ := Option.isSome_iff_exists.1 ((h.known s).2 (hs ▸ hsw))
    subst hs
    simp [hd]
  · simp [hs]

theorem onPath_enter {S : List Dpid} (h : st.Base S) {sw s : Dpid} (hsw : sw ∈ S)
    (hv : ¬st.Visited sw) {parentIndex : WithTop ℤ} {currIndex : ℤ} :
    (st.enter sw parentIndex currIndex).OnPath s ↔ st.OnPath s ∨ s = sw := by
  have hcur : sw ∉ st.currSet := fun hs => hv (h.curr sw hs).1
  have hcl : st.switchClusterMap.get sw = none := by
    cases hk : st.switchClusterMap.get sw with
    | none => rfl
    | some k => exact absurd (h.clustered sw k hk) hv
  unfold OnPath
  rw [visited_enter h hsw]
  unfold DfsState.enter
  rw [currSet_modify, switchClusterMap_modify]
  constructor
  · rintro ⟨hs | hs, h'⟩
    · exact .inl ⟨hs, h'⟩
    · exact .inr hs
  · rintro (⟨hs, h'⟩ | rfl)
    · exact ⟨.inl hs, h'⟩
    · exact ⟨.inr rfl, hcur, hcl⟩

/-! ### Closing a cluster -/

theorem switchClusterMap_newCluster (ord : HashOrder) (s : Dpid) :
    (st.newCluster ord).switchClusterMap.get s =
      if s ∈ st.currSet then some st.clusters.length else st.switchClusterMap.get s := by
  show (List.foldl _ _ _ : HashMap Dpid Nat).get s = _
  rw [HashMap.get_foldl_put]
  simp only [HashOrder.mem_iter]

theorem Divided.newCluster (h : st.Divided) (ord : HashOrder) (hne : st.currSet ≠ [])
    (hcur : ∀ s ∈ st.currSet, st.switchClusterMap.get s = none) :
    (st.newCluster ord).Divided := by
  set c := (ord.iter st.currSet).foldl Cluster.add Cluster.empty with hc
  have hnodes : ∀ s, s ∈ c.getNodes ↔ s ∈ st.currSet := by
    intro s
    rw [hc, Cluster.mem_getNodes_foldl_add, HashOrder.mem_iter]
    simp
  have hcl : (st.newCluster ord).clusters = st.clusters ++ [c] := rfl
  have hall : ∀ P : Cluster → Prop, (∀ c ∈ st.clusters, P c) → P c →
      ∀ c ∈ (st.newCluster ord).clusters, P c := by
    intro P h₁ h₂ c' hc'
    rw [hcl, List.mem_append, List.mem_singleton] at hc'
    rcases hc' with hc' | rfl
    · exact h₁ c' hc'
    · exact h₂
  constructor
  · intro s k hs
    rw [switchClusterMap_newCluster] at hs
    rw [hcl, List.length_append, List.length_singleton]
    split_ifs at hs
    · have := Option.some.inj hs; omega
    · have := h.lt s k hs; omega
  · intro k c' hc' s
    rw [hcl] at hc'
    rw [switchClusterMap_newCluster]
    by_cases hk : k < st.clusters.length
    · rw [List.getElem?_append_left hk] at hc'
      rw [h.mem_iff k c' hc']
      split_ifs with hs
      · rw [hcur s hs]
        simp only [reduceCtorEq, Option.some.injEq, false_iff]
        omega
      · rfl
    · rw [List.getElem?_append_right (by omega), List.getElem?_singleton] at hc'
      split_ifs at hc' with hk'
      obtain rfl := Option.some.inj hc'
      have hk'' : k = st.clusters.length := by omega
      rw [hnodes, hk'']
      split_ifs with hs
      · simp [hs]
      · simp only [hs, false_iff]
        exact fun e => (h.lt s _ e).ne rfl
  · refine hall _ h.nonempty ?_
    obtain ⟨s, hs⟩ := List.exists_mem_of_ne_nil _ hne
    exact List.ne_nil_of_mem ((hnodes s).2 hs)
  · exact hall _ h.lowestId (Cluster.LowestId.empty.foldl_add _)
  · exact hall _ h.noLinks (Cluster.NoLinks.foldl_add (fun _ => .inl rfl) _)

/-- Adding the switch at the end of the path to the current set. -/
def leave (st : DfsState) (sw : Dpid) : DfsState :=
  { st with currSet := setAdd st.currSet sw }

theorem Base.leave {S : List Dpid} (h : st.Base S) {sw : Dpid} (hsw : st.OnPath sw) :
    (st.leave sw).Base S where
  known := h.known
  fresh := h.fresh
  pos := h.pos
  curr s hs := by
    rcases (mem_setAdd _).1 hs with hs | rfl
    · exact h.curr s hs
    · exact ⟨hsw.1, hsw.2.2⟩
  clustered := h.clustered
  nodup := nodup_setAdd h.nodup sw
  divided := ⟨h.divided.lt, h.divided.mem_iff, h.divided.nonempty, h.divided.lowestId,
    h.divided.noLinks⟩

theorem onPath_leave {sw s : Dpid} : (st.leave sw).OnPath s ↔ st.OnPath s ∧ s ≠ sw := by
  unfold OnPath leave
  rw [mem_setAdd, not_or]
  exact ⟨fun ⟨a, ⟨b, c⟩, d⟩ => ⟨⟨a, b, d⟩, c⟩, fun ⟨⟨a, b, d⟩, c⟩ => ⟨a, ⟨b, c⟩, d⟩⟩

theorem Base.newCluster {S : List Dpid} (h : st.Base S) (ord : HashOrder)
    (hne : st.currSet ≠ []) : (st.newCluster ord).Base S where
  known := h.known
  fresh := h.fresh
  pos := h.pos
  curr s hs := by cases hs
  clustered s k hs := by
    rw [switchClusterMap_newCluster] at hs
    split_ifs at hs with hc
    · exact (h.curr s hc).1
    · exact h.clustered s k hs
  nodup := List.nodup_nil
  divided := h.divided.newCluster ord hne fun s hs => (h.curr s hs).2

theorem onPath_newCluster (ord : HashOrder) (s : Dpid) :
    (st.newCluster ord).OnPath s ↔ st.OnPath s := by
  unfold OnPath
  rw [switchClusterMap_newCluster]
  show st.Visited s ∧ s ∉ [] ∧ _ ↔ _
  split_ifs with hs
  · simp [hs]
  · simp [hs]

/-- The state between two calls of `identifyOpenflowDomains`. -/
structure Idle (st : DfsState) (S : List Dpid) : Prop where
  base : st.Base S
  currSet : st.currSet = []
  onPath : ∀ s, ¬st.OnPath s

end DfsState

/-! ## The search -/

namespace TopologyInstance

open DfsState

/-- Links are filed at their own end ports only, and their end switches are switches of the
instance. -/
structure Filed (t : TopologyInstance) : Prop where
  ends : ∀ npt l, t.switchPortLinks.Has npt l → npt ∈ l.ends
  src_mem : ∀ npt l, t.switchPortLinks.Has npt l → l.src ∈ t.switches
  dst_mem : ∀ npt l, t.switchPortLinks.Has npt l → l.dst ∈ t.switches

variable {ord : HashOrder} {t : TopologyInstance}

theorem mem_linksOf {sw : Dpid} {l : Link} :
    l ∈ t.linksOf ord sw ↔
      ∃ p, t.switchPorts.Has sw p ∧ t.switchPortLinks.Has ⟨sw, p⟩ l := by
  unfold linksOf SetMap.Has
  cases t.switchPorts.get sw with
  | none => simp
  | some ports =>
    simp only [List.mem_flatMap, HashOrder.mem_iter, Option.some.injEq, exists_eq_left']
    refine exists_congr fun p => and_congr_right fun _ => ?_
    cases t.switchPortLinks.get ⟨sw, p⟩ with
    | none => simp
    | some lset => simp

theorem Filed.dst_mem_of_linksOf (hF : t.Filed) {sw : Dpid} {l : Link}
    (hl : l ∈ t.linksOf ord sw) : l.dst ∈ t.switches := by
  obtain ⟨p, -, h⟩ := mem_linksOf.1 hl
  exact hF.dst_mem _ l h

/-- What a call of `dfsTraverse` guarantees. -/
def CallSpec (t : TopologyInstance) (st : DfsState) (sw : Dpid) (parentIndex : WithTop ℤ)
    (currIndex : ℤ) (result : Option (ℤ × DfsState)) : Prop :=
  ∃ i st', result = some (i, st') ∧ currIndex ≤ i ∧ st'.Base t.switches ∧
    Extends none st st' ∧ st'.Visited sw ∧ (parentIndex = (0 : ℤ) → st'.currSet = [])

/-- The loop over links, if the recursive call does what it should. -/
theorem dfsLinks_spec {visit : WithTop ℤ → ℤ → Dpid → DfsState → Option (ℤ × DfsState)}
    {currSw : Dpid} {n : ℕ}
    (hvisit : ∀ p i sw st, st.Base t.switches → sw ∈ t.switches → ¬st.Visited sw →
      (st.unvisited t.switches).card < n → 0 < i → CallSpec t st sw p i (visit p i sw st))
    (ls : List Link) (hls : ∀ l ∈ ls, l.dst ∈ t.switches) :
    ∀ (i : ℤ) (st : DfsState), st.Base t.switches → st.Visited currSw →
      (st.unvisited t.switches).card < n → 0 < i →
      ∃ i' st', t.dfsLinks visit currSw ls i st = some (i', st') ∧ i ≤ i' ∧
        st'.Base t.switches ∧ Extends (some currSw) st st' := by
  induction ls with
  | nil => exact fun i st hB _ _ _ => ⟨i, st, rfl, le_rfl, hB, .refl _ st⟩
  | cons l ls ih =>
    intro i st hB hcurr hn hi
    have ih := ih fun l' hl' => hls l' (List.mem_cons_of_mem l hl')
    have hdst : l.dst ∈ t.switches := hls l List.mem_cons_self
    obtain ⟨dstDFS, hd⟩ := Option.isSome_iff_exists.1 ((hB.known l.dst).2 hdst)
    obtain ⟨currDFS, hc, hcv⟩ := hcurr
    have hcurr : st.Visited currSw := ⟨currDFS, hc, hcv⟩
    -- the rest of the loop from a state with a lower lowpoint
    have hrest : ∀ (j : ℤ) (st₁ : DfsState) (x : WithTop ℤ), i ≤ j → st₁.Base t.switches →
        Extends none st st₁ → (0 : ℤ) < x →
        ∃ i' st', t.dfsLinks visit currSw ls j (st₁.lower currSw x) = some (i', st') ∧ i ≤ i' ∧
          st'.Base t.switches ∧ Extends (some currSw) st st' := by
      intro j st₁ x hj hB₁ hE hx
      have hcurr₁ := hE.visited currSw hcurr
      have hE₁ : Extends (some currSw) st (st₁.lower currSw x) :=
        (hE.weaken _).trans (.lower st₁ currSw x)
      obtain ⟨i', st', hr, hi', hB', hE'⟩ := ih j _ (hB₁.lower hcurr₁ hx)
        (visited_lower.2 hcurr₁) ((hE₁.card_unvisited_le _).trans_lt hn) (by omega)
      exact ⟨i', st', hr, by omega, hB', hE₁.trans hE'⟩
    unfold dfsLinks
    simp only [hd, hc, Option.bind_eq_bind, Option.bind_some]
    split_ifs with hskip hlt hv
    · exact ih i st hB hcurr hn hi
    · exact hrest i st _ le_rfl hB (.refl _ st) (hB.pos l.dst dstDFS hd).1
    · have hv' : ¬st.Visited l.dst := by
        rintro ⟨d, hd', hdv⟩
        obtain rfl := Option.some.inj (hd.symm.trans hd')
        rw [hv] at hdv; cases hdv
      obtain ⟨j, st₁, hr, hj, hB₁, hE, ⟨d₁, hd₁, -⟩, -⟩ :=
        hvisit currDFS.dfsIndex i l.dst st hB hdst hv' hn hi
      rw [hr, Option.bind_some]
      dsimp only
      rw [if_neg (by omega), hd₁, Option.bind_some]
      exact hrest j st₁ _ hj hB₁ hE (hB₁.pos l.dst d₁ hd₁).2
    · exact ih i st hB hcurr hn hi

/-- The state at the end of a call for `sw`, whose DFS object is `d`. -/
def finish (ord : HashOrder) (st : DfsState) (sw : Dpid) (d : ClusterDFS) : DfsState :=
  if d.lowpoint > d.parentDFSIndex then (st.leave sw).newCluster ord else st.leave sw

theorem dfsFinish_eq {sw : Dpid} {d : ClusterDFS} {st : DfsState} (i : ℤ)
    (hd : st.dfsList.get sw = some d) : dfsFinish ord sw i st = some (i, finish ord st sw d) := by
  unfold dfsFinish finish
  dsimp only
  rw [hd, Option.bind_eq_bind, Option.bind_some]
  split_ifs <;> rfl

theorem finish_spec {S : List Dpid} {sw : Dpid} {st : DfsState} (hB : st.Base S)
    (hsw : st.OnPath sw) (d : ClusterDFS) :
    (finish ord st sw d).Base S ∧
      (∀ s, (finish ord st sw d).OnPath s ↔ st.OnPath s ∧ s ≠ sw) ∧
      (finish ord st sw d).dfsList = st.dfsList ∧
      ∀ s k, st.switchClusterMap.get s = some k →
        (finish ord st sw d).switchClusterMap.get s = some k := by
  have hBl := hB.leave hsw
  unfold finish
  split_ifs
  · refine ⟨hBl.newCluster ord (setAdd_ne_nil _ _), ?_, rfl, ?_⟩
    · intro s
      rw [onPath_newCluster, onPath_leave]
    · intro s k hs
      rw [switchClusterMap_newCluster, if_neg]
      · exact hs
      · intro hc
        have := (hBl.curr s hc).2
        rw [show (st.leave sw).switchClusterMap.get s = some k from hs] at this
        cases this
  · exact ⟨hBl, fun s => onPath_leave, rfl, fun s k hs => hs⟩

theorem dfsTraverse_spec (hF : t.Filed) (fuel : ℕ) :
    ∀ p i sw st, st.Base t.switches → sw ∈ t.switches → ¬st.Visited sw →
      (st.unvisited t.switches).card < fuel → 0 < i →
      CallSpec t st sw p i (t.dfsTraverse ord fuel p i sw st) := by
  induction fuel with
  | zero => intro p i sw st _ _ _ hn; omega
  | succ fuel ih =>
    intro p i sw st hB hsw hv hn hi
    obtain ⟨d₀, hd₀⟩ := Option.isSome_iff_exists.1 ((hB.known sw).2 hsw)
    have hBe : (st.enter sw p i).Base t.switches := hB.enter hi
    have hvis : ∀ s, (st.enter sw p i).Visited s ↔ st.Visited s ∨ s = sw :=
      fun s => visited_enter hB hsw
    have hcard : ((st.enter sw p i).unvisited t.switches).card < fuel := by
      have hlt : ((st.enter sw p i).unvisited t.switches).card <
          (st.unvisited t.switches).card := by
        refine Finset.card_lt_card ⟨fun s hs => ?_, fun hsub => ?_⟩
        · obtain ⟨hS, hs⟩ := mem_unvisited.1 hs
          exact mem_unvisited.2 ⟨hS, fun h => hs ((hvis s).2 (.inl h))⟩
        · exact (mem_unvisited.1 (hsub (mem_unvisited.2 ⟨hsw, hv⟩))).2 ((hvis sw).2 (.inr rfl))
      omega
    obtain ⟨i', st₁, hr, hi', hB₁, hE⟩ := dfsLinks_spec ih (t.linksOf ord sw)
      (fun l hl => hF.dst_mem_of_linksOf hl) (i + 1) _ hBe ((hvis sw).2 (.inr rfl)) hcard (by omega)
    have hget : (st.enter sw p i).dfsList.get sw = some ⟨i, p, d₀.lowpoint, true⟩ := by
      rw [get_enter, if_pos rfl, hd₀]; rfl
    obtain ⟨low, hlow, -⟩ := hE.data sw _ hget rfl
    have hon : st₁.OnPath sw := (hE.onPath sw).2 ((onPath_enter hB hsw hv).2 (.inr rfl))
    unfold dfsTraverse
    rw [hd₀, Option.bind_eq_bind, Option.bind_some, hr, Option.bind_eq_bind, Option.bind_some]
    dsimp only
    rw [if_neg (by omega), dfsFinish_eq i' hlow]
    refine ⟨i', _, rfl, by omega, ?_⟩
    obtain ⟨hB', hon', hdata, hcl⟩ := finish_spec hB₁ hon ⟨i, p, low, true⟩
    refine ⟨hB', ⟨?_, ?_, ?_, ?_⟩, ?_, ?_⟩
    · intro s hs
      obtain ⟨d, hd, hdv⟩ := hE.visited s ((hvis s).2 (.inl hs))
      exact ⟨d, by rw [hdata]; exact hd, hdv⟩
    · intro s
      rw [hon', hE.onPath, onPath_enter hB hsw hv]
      constructor
      · rintro ⟨h | h, hne⟩
        · exact h
        · exact absurd h hne
      · intro h
        exact ⟨.inl h, fun e => hv (e ▸ h.1)⟩
    · intro s k hs
      refine hcl s k (hE.cluster s k ?_)
      unfold DfsState.enter
      rw [switchClusterMap_modify]; exact hs
    · intro s d hd hdv
      have hne : s ≠ sw := fun e => hv ⟨d, e ▸ hd, hdv⟩
      have hge : (st.enter sw p i).dfsList.get s = some d := by rw [get_enter, if_neg hne, hd]
      obtain ⟨low', hl', hlow'⟩ := hE.data s d hge hdv
      exact ⟨low', by rw [hdata]; exact hl', fun _ => hlow' fun e => hne (Option.some.inj e)⟩
    · exact ⟨_, by rw [hdata]; exact hlow, rfl⟩
    · rintro rfl
      unfold finish
      rw [if_pos (hB₁.pos sw _ hlow).2]
      rfl

/-! ## The clusters found -/

theorem dfsRoots_spec (hF : t.Filed) (sws : List Dpid) (hsws : ∀ s ∈ sws, s ∈ t.switches) :
    ∀ st : DfsState, st.Idle t.switches → ∃ st', t.dfsRoots ord sws st = some st' ∧
      st'.Idle t.switches ∧ (∀ s, st.Visited s → st'.Visited s) ∧ ∀ s ∈ sws, st'.Visited s := by
  induction sws with
  | nil => exact fun st hI => ⟨st, rfl, hI, fun _ h => h, by simp⟩
  | cons sw sws ih =>
    intro st hI
    have ih := ih fun s hs => hsws s (List.mem_cons_of_mem sw hs)
    have hsw : sw ∈ t.switches := hsws sw List.mem_cons_self
    obtain ⟨d, hd⟩ := Option.isSome_iff_exists.1 ((hI.base.known sw).2 hsw)
    unfold dfsRoots
    simp only [hd]
    split_ifs with hv
    · have hv' : ¬st.Visited sw := by
        rintro ⟨d', hd', hdv⟩
        obtain rfl := Option.some.inj (hd.symm.trans hd')
        rw [hv] at hdv; cases hdv
      have hfuel : (st.unvisited t.switches).card < t.switches.length + 1 :=
        Nat.lt_succ_of_le (card_unvisited_le _)
      obtain ⟨i, st₁, hr, -, hB₁, hE, hv₁, hcur⟩ :=
        dfsTraverse_spec hF _ _ 1 sw st hI.base hsw hv' hfuel one_pos
      obtain ⟨st', hr', hI', hmono, hall⟩ := ih st₁
        ⟨hB₁, hcur rfl, fun s hs => hI.onPath s ((hE.onPath s).1 hs)⟩
      rw [hr, Option.bind_eq_bind, Option.bind_some]
      refine ⟨st', hr', hI', fun s hs => hmono s (hE.visited s hs), ?_⟩
      intro s hs
      rcases List.mem_cons.1 hs with rfl | hs
      · exact hmono s hv₁
      · exact hall s hs
    · obtain ⟨st', hr', hI', hmono, hall⟩ := ih st hI
      refine ⟨st', hr', hI', hmono, ?_⟩
      intro s hs
      rcases List.mem_cons.1 hs with rfl | hs
      · exact hmono s ⟨d, hd, by simpa using hv⟩
      · exact hall s hs

/-- An instance as the constructor leaves it. -/
structure New (t : TopologyInstance) : Prop where
  switches : ∀ s, s ∈ t.switches ↔ (t.switchPorts.get s).isSome
  clusters : t.clusters = []
  switchClusterMap : t.switchClusterMap = ∅
  clusterBroadcastNodePorts : t.clusterBroadcastNodePorts = ∅
  pathcache : t.pathcache = []

theorem idle_dfsInit (hN : t.New) : (t.dfsInit ord).Idle t.switches := by
  have hget : ∀ s, (t.dfsInit ord).dfsList.get s =
      if s ∈ t.switches then some ClusterDFS.new else none := by
    intro s
    show (List.foldl _ _ _ : HashMap Dpid ClusterDFS).get s = _
    rw [HashMap.get_foldl_put]
    simp only [HashOrder.mem_iter, HashMap.get_empty]
  have hnew : ∀ s d, (t.dfsInit ord).dfsList.get s = some d → d = ClusterDFS.new := by
    intro s d hd
    rw [hget] at hd
    split_ifs at hd
    exact (Option.some.inj hd).symm
  have hcl : (t.dfsInit ord).clusters = [] := hN.clusters
  have hmap : (t.dfsInit ord).switchClusterMap = ∅ := hN.switchClusterMap
  have hvis : ∀ s, ¬(t.dfsInit ord).Visited s := by
    rintro s ⟨d, hd, hdv⟩
    rw [hnew s d hd] at hdv
    cases hdv
  refine ⟨⟨?_, ?_, ?_, ?_, ?_, List.nodup_nil, ?_⟩, rfl, fun s hs => hvis s hs.1⟩
  · intro s
    rw [hget]
    split_ifs with hs <;> simp [hs]
  · intro s d hd _
    rw [hnew s d hd]
    exact ⟨rfl, rfl⟩
  · intro s d hd
    rw [hnew s d hd]
    exact ⟨WithTop.coe_lt_top 0, WithTop.coe_lt_top 0⟩
  · intro s hs
    cases hs
  · intro s k hs
    rw [hmap] at hs
    cases hs
  · constructor
    all_goals simp [hcl, hmap]

/-- The clusters of an instance divide its switches. -/
structure Domains (t : TopologyInstance) : Prop where
  known : ∀ s, s ∈ t.switches ↔ ∃ k, t.switchClusterMap.get s = some k
  lt : ∀ s k, t.switchClusterMap.get s = some k → k < t.clusters.length
  mem_iff : ∀ k c, t.clusters[k]? = some c →
    ∀ s, s ∈ c.getNodes ↔ t.switchClusterMap.get s = some k
  nonempty : ∀ c ∈ t.clusters, c.getNodes ≠ []
  lowestId : ∀ c ∈ t.clusters, c.LowestId

theorem Domains.exists_cluster (h : t.Domains) {s : Dpid} (hs : s ∈ t.switches) :
    ∃ k c, t.switchClusterMap.get s = some k ∧ t.clusters[k]? = some c ∧ s ∈ c.getNodes := by
  obtain ⟨k, hk⟩ := (h.known s).1 hs
  have hlt := h.lt s k hk
  have hc : t.clusters[k]? = some t.clusters[k] := List.getElem?_eq_getElem hlt
  exact ⟨k, t.clusters[k], hk, hc, (h.mem_iff k _ hc s).2 hk⟩

variable (ord) in
/-- The run of the roots, and the instance made of its last state. -/
theorem identifyOpenflowDomains_spec (hF : t.Filed) (hN : t.New) :
    ∃ st, t.dfsRoots ord (ord.iter t.switches) (t.dfsInit ord) = some st ∧
      t.identifyOpenflowDomains ord =
        some { t with clusters := st.clusters, switchClusterMap := st.switchClusterMap } ∧
      st.Idle t.switches ∧
      { t with clusters := st.clusters, switchClusterMap := st.switchClusterMap }.Domains := by
  obtain ⟨st, hr, hI, -, hall⟩ := dfsRoots_spec hF (ord.iter t.switches)
    (fun s hs => (ord.mem_iter).1 hs) _ (idle_dfsInit hN)
  refine ⟨st, hr, ?_, hI, ?_, hI.base.divided.lt, hI.base.divided.mem_iff,
    hI.base.divided.nonempty, hI.base.divided.lowestId⟩
  · unfold identifyOpenflowDomains
    rw [hr, Option.bind_eq_bind, Option.bind_some]
  · intro s
    constructor
    · intro hs
      have hv := hall s ((ord.mem_iter).2 hs)
      by_contra hn
      refine hI.onPath s ⟨hv, by rw [hI.currSet]; simp, ?_⟩
      exact Option.eq_none_iff_forall_ne_some.2 fun k hk => hn ⟨k, hk⟩
    · rintro ⟨k, hk⟩
      obtain ⟨d, hd, -⟩ := hI.base.clustered s k hk
      exact (hI.base.known s).1 (by rw [hd]; rfl)

end TopologyInstance

end Torpedo
