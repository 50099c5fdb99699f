import Torpedo.StateManager.FlowLinks
import Torpedo.Util.Method
import Torpedo.Util.Traversals

/-!
# The path of a flow

The path of a flow through a switch: the links that it comes through, and those that it goes through. Both
methods call themselves for the switches behind the links, with the same match, in which they write the in-port
there or remove it. They do not look whether they have been at a switch before.
-/

namespace Torpedo

namespace OFMStateManager

variable (m : OFMStateManager)

def getFlows (switchId : Dpid) (matchMap : MatchMap) : List OFFlowStatsEntry :=
  if switchId ∈ m.switches then m.getSwitchStatistics switchId matchMap else []

/-- The loop that adds what a method returns for each link. -/
def addAll (f : Link → Method MatchMap (List Link)) : List Link → Method MatchMap (List Link)
  | [] => pure []
  | l :: ls => do
    let links ← f l
    let rest ← addAll f ls
    return links ++ rest

def getOutGoingPath : ℕ → Dpid → Method MatchMap (List Link)
  | 0, _ => Method.ofExcept (.error .outOfFuel)
  | fuel + 1, switchId => do
    let matchMap ← Method.get
    if switchId ∈ m.switches then
      let outLinks ← Method.ofExcept (m.getOutLinks switchId (m.getFlows switchId matchMap))
      let links ← addAll (fun l => do
        Method.modify (·.remove "in_port")
        Method.modify (·.put "in_port" (toString l.dstPort.toInt))
        getOutGoingPath fuel l.dst) outLinks
      return outLinks ++ links
    else return []

def getIncommingPath : ℕ → Dpid → Method MatchMap (List Link)
  | 0, _ => Method.ofExcept (.error .outOfFuel)
  | fuel + 1, switchId => do
    let matchMap ← Method.get
    if switchId ∈ m.switches then
      let inLinks ← Method.ofExcept (m.getIncommingLinks switchId (m.getFlows switchId matchMap))
      let links ← addAll (fun l => do
        Method.modify (·.remove "in_port")
        getIncommingPath fuel l.src) inLinks
      return inLinks ++ links
    else return []

def getPath (fuel : ℕ) (switchId : Dpid) : Method MatchMap (List Link) := do
  if switchId ∈ m.switches then
    let inPath ← m.getIncommingPath fuel switchId
    let outPath ← m.getOutGoingPath fuel switchId
    return inPath ++ outPath
  else return []

/-! ## Following a flow -/

/-- Where a flow goes from a switch, with a match: to the switches behind the links at the ports that its
entries there send to, where the in-port is that of the link. -/
def outwards : Traversal (Dpid × MatchMap) Link where
  Edge a l := ∃ entry ∈ m.getFlows a.1 a.2, ∃ actions, entry.actions = some actions ∧
    ∃ port, .output port ∈ actions ∧ m.linkDiscoveryService.getOutLink m.ord a.1 port = some l
  next a l := (l.dst, (a.2.remove "in_port").put "in_port" (toString l.dstPort.toInt))
  edges a := m.getOutLinks a.1 (m.getFlows a.1 a.2)
  mem_edges h := mem_getOutLinks h _

/-- Where a flow comes from: from the switches before the links at the in-ports of its entries, where nothing
is known of the in-port. -/
def inwards : Traversal (Dpid × MatchMap) Link where
  Edge a l := ∃ entry ∈ m.getFlows a.1 a.2, ∃ port, entry.inPort = some port ∧
    ∃ known, m.linkDiscoveryService.getOutLink m.ord a.1 port = some known ∧ known.reverse = l
  next a l := (l.src, a.2.remove "in_port")
  edges a := m.getIncommingLinks a.1 (m.getFlows a.1 a.2)
  mem_edges h := (reversesOf_getIncommingLinks h).mem _

variable {m} {switchId : Dpid} {matchMap : MatchMap}

theorem getFlows_of_notMem (h : switchId ∉ m.switches) (matchMap : MatchMap) :
    m.getFlows switchId matchMap = [] := if_neg h

variable {f : Link → Method MatchMap (List Link)} {g : Link → Except Stop (List Link)}
  {same left : MatchMap → Prop} {s : MatchMap}

/-- The loop collects what the calls give. The calls leave the match so that this holds for the next one. -/
theorem addAll_eq (hleft : ∀ s, left s → same s) (hf : ∀ l s, same s → (f l s).1 = g l ∧ left (f l s).2)
    (ls : List Link) (hs : same s) : (addAll f ls s).1 = Traversal.collect g ls ∧
      if ls = [] then (addAll f ls s).2 = s else left (addAll f ls s).2 := by
  induction ls generalizing s with
  | nil => exact ⟨rfl, rfl⟩
  | cons l ls ih =>
    obtain ⟨hresult, hcall⟩ := hf l s hs
    obtain ⟨hrest, hloop⟩ := ih (hleft _ hcall)
    have hafter : left (addAll f ls (f l s).2).2 := by
      split_ifs at hloop with hnil
      · rwa [hloop]
      · exact hloop
    rw [if_neg (List.cons_ne_nil l ls)]
    unfold addAll Traversal.collect
    rw [← hresult, ← hrest]
    rcases hfl : f l s with ⟨stop | links, s₁⟩
    · rw [hfl] at hcall
      rw [Method.bind_error hfl]
      exact ⟨rfl, hcall⟩
    · rw [hfl] at hafter
      rw [Method.bind_ok hfl]
      dsimp only at hafter ⊢
      rcases hls : addAll f ls s₁ with ⟨stop | rest, s₂⟩
      · rw [hls] at hafter
        rw [Method.bind_error hls]
        exact ⟨rfl, hafter⟩
      · rw [hls] at hafter
        rw [Method.bind_ok hls]
        exact ⟨rfl, hafter⟩

/-- What a method leaves of the match, by the links that it has found first. -/
def After (left : MatchMap → Prop) (links : Except Stop (List Link)) (s s' : MatchMap) : Prop :=
  match links with
  | .ok (_ :: _) => left s'
  | _ => s' = s

theorem followAll_eq (hleft : ∀ s, left s → same s)
    (hf : ∀ l s, same s → (f l s).1 = g l ∧ left (f l s).2) (links : Except Stop (List Link)) (hs : same s) :
    ((do
      let ls ← Method.ofExcept links
      let rest ← addAll f ls
      return ls ++ rest : Method MatchMap (List Link)) s).1 =
        (do
          let ls ← links
          let rest ← Traversal.collect g ls
          return ls ++ rest) ∧
      After left links s ((do
        let ls ← Method.ofExcept links
        let rest ← addAll f ls
        return ls ++ rest : Method MatchMap (List Link)) s).2 := by
  cases links with
  | error stop => exact ⟨rfl, rfl⟩
  | ok ls =>
    obtain ⟨hresult, hloop⟩ := addAll_eq hleft hf ls hs
    rw [Method.ofExcept_ok, Method.pure_bind]
    have hafter : After left (.ok ls) s (addAll f ls s).2 := by
      cases ls with
      | nil => rwa [if_pos rfl] at hloop
      | cons l ls => rwa [if_neg (List.cons_ne_nil l ls)] at hloop
    rcases hls : addAll f ls s with ⟨stop | rest, s'⟩
    · rw [hls] at hresult hafter
      rw [Method.bind_error hls]
      dsimp only at hresult
      refine ⟨?_, hafter⟩
      show _ = (do
        let rest ← Traversal.collect g ls
        return ls ++ rest)
      rw [← hresult]
      rfl
    · rw [hls] at hresult hafter
      rw [Method.bind_ok hls]
      dsimp only at hresult
      refine ⟨?_, hafter⟩
      show _ = (do
        let rest ← Traversal.collect g ls
        return ls ++ rest)
      rw [← hresult]
      rfl

theorem getOutGoingPath_eq (fuel : ℕ) (switchId : Dpid) (matchMap : MatchMap) :
    (m.getOutGoingPath fuel switchId matchMap).1 = m.outwards.run fuel (switchId, matchMap) ∧
      (m.getOutGoingPath fuel switchId matchMap).2.remove "in_port" = matchMap.remove "in_port" := by
  induction fuel generalizing switchId matchMap with
  | zero => exact ⟨rfl, rfl⟩
  | succ fuel ih =>
    unfold getOutGoingPath
    rw [Method.get_bind_apply]
    split_ifs with hswitch
    · have hcall : ∀ (l : Link) (s : MatchMap), s.remove "in_port" = matchMap.remove "in_port" →
          ((do
            Method.modify (·.remove "in_port")
            Method.modify (·.put "in_port" (toString l.dstPort.toInt))
            m.getOutGoingPath fuel l.dst : Method MatchMap (List Link)) s).1 =
              m.outwards.run fuel (m.outwards.next (switchId, matchMap) l) ∧
            ((do
              Method.modify (·.remove "in_port")
              Method.modify (·.put "in_port" (toString l.dstPort.toInt))
              m.getOutGoingPath fuel l.dst : Method MatchMap (List Link)) s).2.remove "in_port" =
                matchMap.remove "in_port" := by
        intro l s hs
        simp only [Method.modify_bind_apply, hs]
        obtain ⟨hresult, hremove⟩ := ih l.dst
          ((matchMap.remove "in_port").put "in_port" (toString l.dstPort.toInt))
        rw [HashMap.remove_put, HashMap.remove_remove] at hremove
        exact ⟨hresult, hremove⟩
      obtain ⟨hresult, hafter⟩ := followAll_eq (fun _ h => h) hcall
        (m.getOutLinks switchId (m.getFlows switchId matchMap)) rfl
      refine ⟨hresult, ?_⟩
      unfold After at hafter
      split at hafter
      · exact hafter
      · rw [hafter]
    · unfold Traversal.run outwards
      dsimp only
      rw [getFlows_of_notMem hswitch]
      exact ⟨rfl, rfl⟩

variable (m switchId matchMap) in
/-- What `getIncommingPath` leaves of the match: without the in-port if there is a link. -/
def leftMatch : MatchMap :=
  match m.inwards.edges (switchId, matchMap) with
  | .ok (_ :: _) => matchMap.remove "in_port"
  | _ => matchMap

theorem leftMatch_eq_or (m : OFMStateManager) (switchId : Dpid) (matchMap : MatchMap) :
    m.leftMatch switchId matchMap = matchMap ∨ m.leftMatch switchId matchMap = matchMap.remove "in_port" := by
  unfold leftMatch
  split
  · exact .inr rfl
  · exact .inl rfl

theorem getIncommingPath_eq (fuel : ℕ) (switchId : Dpid) (matchMap : MatchMap) :
    (m.getIncommingPath fuel switchId matchMap).1 = m.inwards.run fuel (switchId, matchMap) ∧
      (m.getIncommingPath fuel switchId matchMap).2 =
        if fuel = 0 then matchMap else m.leftMatch switchId matchMap := by
  induction fuel generalizing switchId matchMap with
  | zero => exact ⟨rfl, rfl⟩
  | succ fuel ih =>
    unfold getIncommingPath
    rw [Method.get_bind_apply, if_neg (Nat.succ_ne_zero fuel)]
    split_ifs with hswitch
    · have hcall : ∀ (l : Link) (s : MatchMap), s.remove "in_port" = matchMap.remove "in_port" →
          ((do
            Method.modify (·.remove "in_port")
            m.getIncommingPath fuel l.src : Method MatchMap (List Link)) s).1 =
              m.inwards.run fuel (m.inwards.next (switchId, matchMap) l) ∧
            ((do
              Method.modify (·.remove "in_port")
              m.getIncommingPath fuel l.src : Method MatchMap (List Link)) s).2 =
                matchMap.remove "in_port" := by
        intro l s hs
        simp only [Method.modify_bind_apply, hs]
        obtain ⟨hresult, hleft⟩ := ih l.src (matchMap.remove "in_port")
        refine ⟨hresult, hleft.trans ?_⟩
        obtain h | h := leftMatch_eq_or m l.src (matchMap.remove "in_port")
        · rw [h, ite_self]
        · rw [h, HashMap.remove_remove, ite_self]
      have hsame : ∀ s : MatchMap, s = matchMap.remove "in_port" →
          s.remove "in_port" = matchMap.remove "in_port" := by
        rintro s rfl
        exact HashMap.remove_remove matchMap "in_port"
      obtain ⟨hresult, hafter⟩ := followAll_eq hsame hcall
        (m.getIncommingLinks switchId (m.getFlows switchId matchMap)) rfl
      refine ⟨hresult, ?_⟩
      unfold leftMatch inwards
      unfold After at hafter
      dsimp only
      split at hafter
      · exact hafter
      · exact hafter
    · unfold Traversal.run leftMatch inwards
      dsimp only
      rw [getFlows_of_notMem hswitch]
      exact ⟨rfl, rfl⟩

/-! ## The whole path -/

theorem edges_of_notMem (h : switchId ∉ m.switches) (matchMap : MatchMap) :
    m.inwards.edges (switchId, matchMap) = .ok [] ∧ m.outwards.edges (switchId, matchMap) = .ok [] := by
  unfold inwards outwards
  dsimp only
  rw [getFlows_of_notMem h]
  exact ⟨rfl, rfl⟩

theorem returns_nil {T : Traversal (Dpid × MatchMap) Link} {a : Dpid × MatchMap} (h : T.edges a = .ok []) :
    T.Returns a [] := Traversal.returns_iff.2 ⟨[], [], h, .nil, rfl⟩

theorem getPath_eq (hswitch : switchId ∈ m.switches) {fuel : ℕ} (hfuel : fuel ≠ 0) :
    (m.getPath fuel switchId matchMap).1 = (do
      let inPath ← m.inwards.run fuel (switchId, matchMap)
      let outPath ← m.outwards.run fuel (switchId, m.leftMatch switchId matchMap)
      return inPath ++ outPath) := by
  obtain ⟨hin, hleft⟩ := getIncommingPath_eq (m := m) fuel switchId matchMap
  rw [if_neg hfuel] at hleft
  unfold getPath
  rw [if_pos hswitch, ← hin]
  rcases hcall : m.getIncommingPath fuel switchId matchMap with ⟨stop | inPath, s₁⟩
  · rw [Method.bind_error hcall]
    rfl
  · rw [hcall] at hleft
    dsimp only at hleft
    have hout := (getOutGoingPath_eq (m := m) fuel switchId s₁).1
    rw [Method.bind_ok hcall, ← hleft, ← hout]
    rcases hcall' : m.getOutGoingPath fuel switchId s₁ with ⟨stop | outPath, s₂⟩
    · rw [Method.bind_error hcall']
      rfl
    · rw [Method.bind_ok hcall']
      rfl

/-- The path goes on outwards with the match that is left of the way inwards. -/
theorem getPath_returns_iff {path : List Link} :
    (∃ fuel, (m.getPath fuel switchId matchMap).1 = .ok path) ↔
      ∃ inPath outPath, m.inwards.Returns (switchId, matchMap) inPath ∧
        m.outwards.Returns (switchId, m.leftMatch switchId matchMap) outPath ∧ inPath ++ outPath = path := by
  by_cases hswitch : switchId ∈ m.switches
  · constructor
    · rintro ⟨fuel, h⟩
      have hfuel : fuel ≠ 0 := by
        rintro rfl
        unfold getPath at h
        rw [if_pos hswitch] at h
        cases h
      rw [getPath_eq hswitch hfuel] at h
      obtain ⟨inPath, hin, h⟩ := Traversal.bind_eq_ok_iff.1 h
      obtain ⟨outPath, hout, h⟩ := Traversal.bind_eq_ok_iff.1 h
      exact ⟨inPath, outPath, ⟨fuel, hin⟩, ⟨fuel, hout⟩, Except.ok.inj h⟩
    · rintro ⟨inPath, outPath, ⟨n, hin⟩, ⟨k, hout⟩, rfl⟩
      have hle : n ≤ max n k + 1 := by omega
      have hle' : k ≤ max n k + 1 := by omega
      refine ⟨max n k + 1, ?_⟩
      rw [getPath_eq hswitch (Nat.succ_ne_zero _), Traversal.run_mono hle hin, Traversal.run_mono hle' hout]
      rfl
  · have hpath : ∀ fuel, (m.getPath fuel switchId matchMap).1 = .ok [] := by
      intro fuel
      unfold getPath
      rw [if_neg hswitch]
      rfl
    have hin := returns_nil (edges_of_notMem hswitch matchMap).1
    have hout := returns_nil (edges_of_notMem hswitch (m.leftMatch switchId matchMap)).2
    constructor
    · rintro ⟨fuel, h⟩
      rw [hpath] at h
      cases h
      exact ⟨[], [], hin, hout, rfl⟩
    · rintro ⟨inPath, outPath, hin', hout', rfl⟩
      rw [← hin.unique hin', ← hout.unique hout']
      exact ⟨0, hpath 0⟩

variable (m switchId matchMap) in
/-- Both ways end and give the links that the flow can be followed along, and the path is the one before the
other, each with the match of the caller. -/
def PathRight : Prop :=
  ∃ inPath outPath,
    ((∃ fuel, (m.getIncommingPath fuel switchId matchMap).1 = .ok inPath) ∧
      ∀ l, l ∈ inPath ↔ m.inwards.Met (switchId, matchMap) l) ∧
    ((∃ fuel, (m.getOutGoingPath fuel switchId matchMap).1 = .ok outPath) ∧
      ∀ l, l ∈ outPath ↔ m.outwards.Met (switchId, matchMap) l) ∧
    ∃ fuel, (m.getPath fuel switchId matchMap).1 = .ok (inPath ++ outPath)

/-- The flow does not go round, and its entries can be read; no link leads to the switch, or the entries for
the match without an in-port lead to the same links. -/
structure Followable (m : OFMStateManager) (switchId : Dpid) (matchMap : MatchMap) : Prop where
  inwards : Acc (fun b a => m.inwards.Step a b) (switchId, matchMap)
  outwards : Acc (fun b a => m.outwards.Step a b) (switchId, matchMap)
  carried : ∀ a, m.inwards.Reaches (switchId, matchMap) a → m.NoneCarried a.1 [] (m.getFlows a.1 a.2)
  actions : ∀ a, m.outwards.Reaches (switchId, matchMap) a → ∀ entry ∈ m.getFlows a.1 a.2, entry.actions ≠ none
  same : (∀ l, ¬m.inwards.Edge (switchId, matchMap) l) ∨
    m.getOutLinks switchId (m.getFlows switchId (matchMap.remove "in_port")) =
      m.getOutLinks switchId (m.getFlows switchId matchMap)

theorem finite_inwards_iff {a : Dpid × MatchMap} : m.inwards.Finite a ↔
    Acc (fun b a => m.inwards.Step a b) a ∧
      ∀ b, m.inwards.Reaches a b → m.NoneCarried b.1 [] (m.getFlows b.1 b.2) :=
  ⟨fun h => ⟨h.acc, fun b hb => exists_getIncommingLinks_iff.1 (h.readable b hb)⟩,
    fun h => ⟨h.1, fun b hb => exists_getIncommingLinks_iff.2 (h.2 b hb)⟩⟩

theorem finite_outwards_iff {a : Dpid × MatchMap} : m.outwards.Finite a ↔
    Acc (fun b a => m.outwards.Step a b) a ∧
      ∀ b, m.outwards.Reaches a b → ∀ entry ∈ m.getFlows b.1 b.2, entry.actions ≠ none :=
  ⟨fun h => ⟨h.acc, fun b hb => exists_getOutLinks_iff.1 (h.readable b hb)⟩,
    fun h => ⟨h.1, fun b hb => exists_getOutLinks_iff.2 (h.2 b hb)⟩⟩

theorem getIncommingPath_returns_iff {inPath : List Link} :
    (∃ fuel, (m.getIncommingPath fuel switchId matchMap).1 = .ok inPath) ↔
      m.inwards.Returns (switchId, matchMap) inPath :=
  exists_congr fun fuel => by rw [(getIncommingPath_eq fuel switchId matchMap).1]

theorem getOutGoingPath_returns_iff {outPath : List Link} :
    (∃ fuel, (m.getOutGoingPath fuel switchId matchMap).1 = .ok outPath) ↔
      m.outwards.Returns (switchId, matchMap) outPath :=
  exists_congr fun fuel => by rw [(getOutGoingPath_eq fuel switchId matchMap).1]

/-- Behind a link, nothing is left of the in-port before it. -/
theorem next_remove (l : Link) : m.outwards.next (switchId, matchMap.remove "in_port") l =
    m.outwards.next (switchId, matchMap) l := by
  unfold outwards
  dsimp only
  rw [HashMap.remove_remove]

theorem leftMatch_of_edge {l : Link} {ls : List Link}
    (h : m.inwards.edges (switchId, matchMap) = .ok (l :: ls)) :
    m.leftMatch switchId matchMap = matchMap.remove "in_port" := by
  unfold leftMatch
  rw [h]

theorem leftMatch_of_nil (h : m.inwards.edges (switchId, matchMap) = .ok []) :
    m.leftMatch switchId matchMap = matchMap := by
  unfold leftMatch
  rw [h]

theorem followable_of_pathRight (h : m.PathRight switchId matchMap) : Followable m switchId matchMap := by
  obtain ⟨inPath, outPath, ⟨hin, -⟩, ⟨hout, -⟩, hpath⟩ := h
  rw [getIncommingPath_returns_iff] at hin
  rw [getOutGoingPath_returns_iff] at hout
  obtain ⟨inPath', outPath', hin', hout', hpath⟩ := getPath_returns_iff.1 hpath
  obtain rfl := hin.unique hin'
  rw [List.append_right_inj] at hpath
  subst hpath
  obtain ⟨hloop, hcarried⟩ := finite_inwards_iff.1 (Traversal.exists_returns_iff.1 ⟨_, hin⟩)
  obtain ⟨hloop', hactions⟩ := finite_outwards_iff.1 (Traversal.exists_returns_iff.1 ⟨_, hout⟩)
  refine ⟨hloop, hloop', hcarried, hactions, ?_⟩
  obtain ⟨ls, -, hedges, -, -⟩ := Traversal.returns_iff.1 hin
  cases ls with
  | nil =>
    refine .inl fun l hl => ?_
    exact absurd ((m.inwards.mem_edges hedges).2 hl) List.not_mem_nil
  | cons l ls =>
    rw [leftMatch_of_edge hedges] at hout'
    obtain ⟨es, -, hes, -, -⟩ := Traversal.returns_iff.1 hout
    obtain ⟨es', -, hes', -, -⟩ := Traversal.returns_iff.1 hout'
    have heq := (hout'.eq_iff next_remove hout hes' hes).1 rfl
    rw [← heq] at hes
    exact .inr (hes'.trans hes.symm)

theorem pathRight_of_followable (h : Followable m switchId matchMap) : m.PathRight switchId matchMap := by
  obtain ⟨inPath, hin⟩ := Traversal.exists_returns_iff.2 (finite_inwards_iff.2 ⟨h.inwards, h.carried⟩)
  obtain ⟨outPath, hout⟩ := Traversal.exists_returns_iff.2 (finite_outwards_iff.2 ⟨h.outwards, h.actions⟩)
  refine ⟨inPath, outPath, ⟨getIncommingPath_returns_iff.2 hin, hin.mem_iff⟩,
    ⟨getOutGoingPath_returns_iff.2 hout, hout.mem_iff⟩,
    getPath_returns_iff.2 ⟨inPath, outPath, hin, ?_, rfl⟩⟩
  obtain ⟨ls, -, hedges, -, -⟩ := Traversal.returns_iff.1 hin
  cases ls with
  | nil => rwa [leftMatch_of_nil hedges]
  | cons l ls =>
    have hsame : m.outwards.edges (switchId, matchMap.remove "in_port") =
        m.outwards.edges (switchId, matchMap) := by
      obtain hnone | hsame := h.same
      · exact absurd ((m.inwards.mem_edges hedges).1 List.mem_cons_self) (hnone l)
      · exact hsame
    obtain ⟨es, rs, hes, hrs, hpath⟩ := Traversal.returns_iff.1 hout
    rw [leftMatch_of_edge hedges]
    refine Traversal.returns_iff.2 ⟨es, rs, hsame.trans hes, hrs.imp fun l r hr => ?_, hpath⟩
    rwa [next_remove]

variable (m switchId matchMap) in
/-- The paths are right exactly if the flow can be followed both ways, and with and without the in-port to the
same links. -/
theorem pathRight_iff_followable : m.PathRight switchId matchMap ↔ Followable m switchId matchMap :=
  ⟨followable_of_pathRight, pathRight_of_followable⟩

/-! ## A flow that goes round, and one with two in-ports -/

/-- Some links that have been discovered. -/
def discovered (links : List Link) : Links :=
  { Links.empty with
    links := links.foldl (fun found l => HashMap.put found l ⟨0, none, none, ∅, ∅⟩) ∅ }

/-- Two switches that send all packets to each other. -/
def looping : OFMStateManager where
  switches := [1, 2]
  linkDiscoveryService := discovered [⟨1, 2, 2, 1⟩, ⟨2, 2, 1, 1⟩]
  ord := .insertion
  getSwitchStatistics _ _ := [⟨none, some [.output 2]⟩]

/-- A switch with flows from port 1 to port 2 and from port 3 to port 4. -/
def twoFlows : OFMStateManager where
  switches := [1]
  linkDiscoveryService := discovered [⟨1, 1, 2, 1⟩, ⟨1, 2, 3, 1⟩, ⟨1, 4, 4, 1⟩]
  ord := .insertion
  getSwitchStatistics _ matchMap :=
    if matchMap.get "in_port" = some "1" then [⟨some 1, some [.output 2]⟩]
    else [⟨some 1, some [.output 2]⟩, ⟨some 3, some [.output 4]⟩]

/-- The match on the in-port 1. -/
def onPortOne : MatchMap := (∅ : MatchMap).put "in_port" "1"

theorem looping_step : looping.outwards.Step (1, onPortOne) (2, onPortOne) ∧
    looping.outwards.Step (2, onPortOne) (1, onPortOne) := by
  refine ⟨⟨⟨1, 2, 2, 1⟩, ?_, ?_⟩, ⟨⟨2, 2, 1, 1⟩, ?_, ?_⟩⟩
  · exact ⟨_, List.mem_singleton_self _, _, rfl, 2, List.mem_singleton_self _, by decide +kernel⟩
  · exact Prod.ext rfl (AList.ext (by decide +kernel))
  · exact ⟨_, List.mem_singleton_self _, _, rfl, 2, List.mem_singleton_self _, by decide +kernel⟩
  · exact Prod.ext rfl (AList.ext (by decide +kernel))

theorem not_acc_of_cycle {α : Type} {R : α → α → Prop} {a b : α} (hab : R b a) (hba : R a b) : ¬Acc R a := by
  intro h
  induction h generalizing b with
  | intro a _ ih => exact ih b hab hba hab

/-- On the loop no path is found, and of the two flows both are. -/
theorem not_pathRight : ¬looping.PathRight 1 onPortOne ∧ ¬twoFlows.PathRight 1 onPortOne := by
  constructor
  · intro h
    obtain ⟨hstep, hstep'⟩ := looping_step
    exact not_acc_of_cycle (R := fun b a => looping.outwards.Step a b) hstep hstep'
      (followable_of_pathRight h).outwards
  · intro h
    obtain hnone | hsame := (followable_of_pathRight h).same
    · refine hnone ⟨2, 1, 1, 1⟩ ⟨_, List.mem_singleton_self _, 1, rfl, ⟨1, 1, 2, 1⟩, ?_, rfl⟩
      decide +kernel
    · have hdiffer : twoFlows.getOutLinks 1 (twoFlows.getFlows 1 (onPortOne.remove "in_port")) ≠
          twoFlows.getOutLinks 1 (twoFlows.getFlows 1 onPortOne) := by
        decide +kernel
      exact hdiffer hsame

end OFMStateManager

end Torpedo
