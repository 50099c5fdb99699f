import Torpedo.LinkDiscovery.Links
import Torpedo.Util.ByteBuffer

/-!
# The links of flows

A flow sends packets into the links at the ports of its output actions, and takes them from the links at the
port that it matches. `getIncommingLinks` looks up a link for an entry with an in-port only; the link is still
there at the next entry, and an entry without an in-port then fails.
-/

namespace Torpedo

namespace Links

variable (ord : HashOrder) (s : Links) (switchId : Dpid)

def getSwitchLinks : List Link := (ord.iter s.links.keySet).filter (·.src = switchId)

def getOutLink (outPort : OFPort) : Option Link := (s.getSwitchLinks ord switchId).find? (·.srcPort = outPort)

variable {ord s switchId}

theorem of_getOutLink {outPort : OFPort} {l : Link} (h : s.getOutLink ord switchId outPort = some l) :
    l ∈ s.links.keySet ∧ l.src = switchId ∧ l.srcPort = outPort := by
  have hport := List.find?_some h
  have hmem := List.mem_filter.1 (List.mem_of_find?_eq_some h)
  rw [HashOrder.mem_iter] at hmem
  exact ⟨hmem.1, of_decide_eq_true hmem.2, of_decide_eq_true hport⟩

end Links

inductive OFAction
  | output (port : OFPort)
  | other
deriving DecidableEq, Repr

structure OFFlowStatsEntry where
  /-- `match.get(MatchField.IN_PORT)`. -/
  inPort : Option OFPort
  /-- `getActions`, which throws for an entry that has instructions instead. -/
  actions : Option (List OFAction)
deriving DecidableEq, Repr

/-- A match by the names of its fields. -/
abbrev MatchMap := HashMap String String

structure OFMStateManager where
  /-- The switches that `getController().getSwitch` knows. -/
  switches : List Dpid
  linkDiscoveryService : Links
  ord : HashOrder
  /-- What a switch answers to a request for the flows with a match. -/
  getSwitchStatistics : Dpid → MatchMap → List OFFlowStatsEntry

/-! ## Links, one for each port -/

/-- The lists `links` and `ports` of a method. -/
structure PortLinks where
  links : List Link
  ports : List OFPort

namespace PortLinks

/-- `if (ports.add(port)) links.add(link)`. -/
def add (s : PortLinks) (port : OFPort) (link : Link) : PortLinks :=
  if port ∈ s.ports then s else ⟨s.links ++ [link], setAdd s.ports port⟩

/-- A link for each port that has been seen and has one. -/
structure Of (f : OFPort → Option Link) (seen : List OFPort) (s : PortLinks) : Prop where
  nodup : s.ports.Nodup
  links : s.ports.map f = s.links.map some
  mem : ∀ port, port ∈ s.ports ↔ port ∈ seen ∧ f port ≠ none

variable {f : OFPort → Option Link} {seen : List OFPort} {s : PortLinks} {port : OFPort} {link : Link}

theorem of_nil : Of f [] ⟨[], []⟩ where
  nodup := .nil
  links := rfl
  mem := by simp

theorem Of.skip (h : s.Of f seen) (hport : f port = none) : s.Of f (seen ++ [port]) where
  nodup := h.nodup
  links := h.links
  mem port' := by
    rw [h.mem, List.mem_append, List.mem_singleton]
    constructor
    · exact fun ⟨hseen, hsome⟩ => ⟨.inl hseen, hsome⟩
    · rintro ⟨hseen | rfl, hsome⟩
      · exact ⟨hseen, hsome⟩
      · exact absurd hport hsome

theorem Of.add (h : s.Of f seen) (hport : f port = some link) : (s.add port link).Of f (seen ++ [port]) := by
  have hsome : f port ≠ none := by
    rw [hport]
    exact Option.some_ne_none link
  unfold PortLinks.add
  split_ifs with hmem
  · refine ⟨h.nodup, h.links, fun port' => ?_⟩
    have hseen := ((h.mem port).1 hmem).1
    rw [h.mem, List.mem_append, List.mem_singleton]
    constructor
    · exact fun ⟨hseen', hsome'⟩ => ⟨.inl hseen', hsome'⟩
    · rintro ⟨hseen' | rfl, hsome'⟩
      · exact ⟨hseen', hsome'⟩
      · exact ⟨hseen, hsome'⟩
  · have hports : setAdd s.ports port = s.ports ++ [port] := if_neg hmem
    refine ⟨nodup_setAdd h.nodup port, ?_, fun port' => ?_⟩
    · dsimp only
      rw [hports, List.map_append, List.map_append, h.links, List.map_singleton, hport, List.map_singleton]
    · rw [mem_setAdd, h.mem, List.mem_append, List.mem_singleton]
      constructor
      · rintro (⟨hseen, hsome'⟩ | rfl)
        · exact ⟨.inl hseen, hsome'⟩
        · exact ⟨.inr rfl, hsome⟩
      · rintro ⟨hseen | rfl, hsome'⟩
        · exact .inl ⟨hseen, hsome'⟩
        · exact .inr rfl

theorem Of.mem_links (h : s.Of f seen) : link ∈ s.links ↔ ∃ port ∈ seen, f port = some link := by
  have hmem : link ∈ s.links ↔ some link ∈ s.ports.map f := by
    rw [h.links]
    simp
  rw [hmem, List.mem_map]
  constructor
  · rintro ⟨port, hport, heq⟩
    exact ⟨port, ((h.mem port).1 hport).1, heq⟩
  · rintro ⟨port, hport, heq⟩
    refine ⟨port, (h.mem port).2 ⟨hport, ?_⟩, heq⟩
    rw [heq]
    exact Option.some_ne_none link

theorem Of.nodup_links (h : s.Of f seen)
    (hf : ∀ port port' link, f port = some link → f port' = some link → port = port') : s.links.Nodup := by
  have hnodup : (s.ports.map f).Nodup := by
    refine List.Nodup.map_on (fun port hport port' _ heq => ?_) h.nodup
    obtain ⟨link, hlink⟩ := Option.ne_none_iff_exists'.1 ((h.mem port).1 hport).2
    exact hf port port' link hlink (heq ▸ hlink)
  rw [h.links] at hnodup
  exact hnodup.of_map some

end PortLinks

namespace OFMStateManager

variable (m : OFMStateManager) (switchId : Dpid)

/-- The link at a port, of the link discovery. -/
def outLink (port : OFPort) : Option Link := m.linkDiscoveryService.getOutLink m.ord switchId port

/-- The same link, in the other direction. -/
def inLink (port : OFPort) : Option Link := (m.outLink switchId port).map Link.reverse

/-! ## Outgoing links -/

/-- The loop over the actions of an entry. -/
def addOutLink (s : PortLinks) : OFAction → PortLinks
  | .other => s
  | .output port =>
    match m.outLink switchId port with
    | none => s
    | some link => s.add port link

def addOutLinks (s : PortLinks) (entry : OFFlowStatsEntry) : Except Stop PortLinks := do
  let actions ← orThrow entry.actions
  return actions.foldl (m.addOutLink switchId) s

def getOutLinks (flowEntries : List OFFlowStatsEntry) : Except Stop (List Link) := do
  let s ← flowEntries.foldlM (m.addOutLinks switchId) ⟨[], []⟩
  return s.links

/-! ## Incoming links -/

/-- The variables of `getIncommingLinks`. -/
structure Incomming where
  found : PortLinks
  link : Option Link

/-- The loop of `getIncommingLinks`. An entry without an in-port leaves the link as it is. -/
def addIncommingLink (s : Incomming) (entry : OFFlowStatsEntry) : Except Stop Incomming :=
  let link :=
    match entry.inPort with
    | some port => m.outLink switchId port
    | none => s.link
  match link, entry.inPort with
  | none, _ => .ok ⟨s.found, link⟩
  | some _, none => .error .exception
  | some l, some port => .ok ⟨s.found.add port l.reverse, link⟩

def getIncommingLinks (flowEntries : List OFFlowStatsEntry) : Except Stop (List Link) := do
  let s ← flowEntries.foldlM (m.addIncommingLink switchId) ⟨⟨[], []⟩, none⟩
  return s.found.links

variable {m switchId}

theorem outLink_injective {port port' : OFPort} {l : Link} (h : m.outLink switchId port = some l)
    (h' : m.outLink switchId port' = some l) : port = port' :=
  (Links.of_getOutLink h).2.2.symm.trans (Links.of_getOutLink h').2.2

theorem inLink_eq_some {port : OFPort} {l : Link} :
    m.inLink switchId port = some l ↔ ∃ known, m.outLink switchId port = some known ∧ known.reverse = l :=
  Option.map_eq_some_iff

theorem inLink_injective (port port' : OFPort) (l : Link) (h : m.inLink switchId port = some l)
    (h' : m.inLink switchId port' = some l) : port = port' := by
  obtain ⟨known, hknown, rfl⟩ := inLink_eq_some.1 h
  obtain ⟨known', hknown', hreverse⟩ := inLink_eq_some.1 h'
  have hsame : known' = known := by
    rw [← known'.reverse_reverse, hreverse, known.reverse_reverse]
  exact outLink_injective hknown (hsame ▸ hknown')

/-! ## What the outgoing links are -/

/-- The ports of the output actions. -/
def outPorts (actions : List OFAction) : List OFPort :=
  actions.filterMap fun action =>
    match action with
    | .output port => some port
    | .other => none

theorem of_addOutLink {s : PortLinks} {seen : List OFPort} (h : s.Of (m.outLink switchId) seen)
    (actions : List OFAction) :
    (actions.foldl (m.addOutLink switchId) s).Of (m.outLink switchId) (seen ++ outPorts actions) := by
  induction actions generalizing s seen with
  | nil => simpa [outPorts] using h
  | cons action actions ih =>
    cases action with
    | other => exact ih h
    | output port =>
      have hstep : (m.addOutLink switchId s (.output port)).Of (m.outLink switchId) (seen ++ [port]) := by
        unfold addOutLink
        dsimp only
        cases hlink : m.outLink switchId port with
        | none => exact h.skip hlink
        | some link => exact h.add hlink
      have hrest := ih hstep
      rw [List.append_assoc] at hrest
      exact hrest

/-- The ports of the output actions of the entries. -/
def entryOutPorts (flowEntries : List OFFlowStatsEntry) : List OFPort :=
  flowEntries.flatMap fun entry => outPorts (entry.actions.getD [])

theorem of_addOutLinks {s s' : PortLinks} {seen : List OFPort} {flowEntries : List OFFlowStatsEntry}
    (h : s.Of (m.outLink switchId) seen) (hs' : flowEntries.foldlM (m.addOutLinks switchId) s = .ok s') :
    s'.Of (m.outLink switchId) (seen ++ entryOutPorts flowEntries) := by
  induction flowEntries generalizing s seen with
  | nil =>
    cases hs'
    simpa [entryOutPorts] using h
  | cons entry flowEntries ih =>
    rw [List.foldlM_cons] at hs'
    cases hactions : entry.actions with
    | none =>
      unfold addOutLinks at hs'
      rw [hactions] at hs'
      cases hs'
    | some actions =>
      unfold addOutLinks at hs'
      rw [hactions] at hs'
      have hrest := ih (of_addOutLink h actions) hs'
      rw [List.append_assoc] at hrest
      unfold entryOutPorts
      rw [List.flatMap_cons, hactions]
      exact hrest

theorem exists_addOutLinks {flowEntries : List OFFlowStatsEntry}
    (h : ∀ entry ∈ flowEntries, entry.actions ≠ none) (s : PortLinks) :
    ∃ s', flowEntries.foldlM (m.addOutLinks switchId) s = .ok s' := by
  induction flowEntries generalizing s with
  | nil => exact ⟨s, rfl⟩
  | cons entry flowEntries ih =>
    obtain ⟨actions, hactions⟩ := Option.ne_none_iff_exists'.1 (h entry List.mem_cons_self)
    have hrest := ih fun entry hentry => h entry (List.mem_cons_of_mem _ hentry)
    obtain ⟨s', hs'⟩ := hrest (actions.foldl (m.addOutLink switchId) s)
    refine ⟨s', ?_⟩
    rw [List.foldlM_cons]
    unfold addOutLinks
    rw [hactions]
    exact hs'

theorem actions_of_addOutLinks {s s' : PortLinks} {flowEntries : List OFFlowStatsEntry}
    (hs' : flowEntries.foldlM (m.addOutLinks switchId) s = .ok s') :
    ∀ entry ∈ flowEntries, entry.actions ≠ none := by
  induction flowEntries generalizing s with
  | nil => exact fun entry hentry => absurd hentry List.not_mem_nil
  | cons entry flowEntries ih =>
    rw [List.foldlM_cons] at hs'
    unfold addOutLinks at hs'
    cases hactions : entry.actions with
    | none =>
      rw [hactions] at hs'
      cases hs'
    | some actions =>
      rw [hactions] at hs'
      refine List.forall_mem_cons.2 ⟨?_, ih hs'⟩
      rw [hactions]
      exact Option.some_ne_none actions

variable {flowEntries : List OFFlowStatsEntry} {links : List Link}

/-- The outgoing links are found if all entries have actions. -/
theorem exists_getOutLinks_iff : (∃ links, m.getOutLinks switchId flowEntries = .ok links) ↔
    ∀ entry ∈ flowEntries, entry.actions ≠ none := by
  unfold getOutLinks
  constructor
  · rintro ⟨links, h⟩
    cases hs : flowEntries.foldlM (m.addOutLinks switchId) ⟨[], []⟩ with
    | error stop =>
      rw [hs] at h
      cases h
    | ok s => exact actions_of_addOutLinks hs
  · intro h
    obtain ⟨s, hs⟩ := exists_addOutLinks h ⟨[], []⟩
    refine ⟨s.links, ?_⟩
    rw [hs]
    rfl

theorem mem_entryOutPorts {port : OFPort} : port ∈ entryOutPorts flowEntries ↔
    ∃ entry ∈ flowEntries, ∃ actions, entry.actions = some actions ∧ .output port ∈ actions := by
  have hports : ∀ actions, port ∈ outPorts actions ↔ .output port ∈ actions := by
    intro actions
    induction actions with
    | nil => simp [outPorts]
    | cons action actions ih =>
      cases action with
      | output port' => simp [outPorts, ← ih]
      | other => simp [outPorts, ← ih]
  unfold entryOutPorts
  rw [List.mem_flatMap]
  refine exists_congr fun entry => and_congr_right fun _ => ?_
  rw [hports]
  cases entry.actions with
  | none => simp
  | some actions => simp

/-- They are the links at the ports that the entries send to. -/
theorem mem_getOutLinks (h : m.getOutLinks switchId flowEntries = .ok links) (l : Link) :
    l ∈ links ↔ ∃ entry ∈ flowEntries, ∃ actions, entry.actions = some actions ∧
      ∃ port, .output port ∈ actions ∧ m.linkDiscoveryService.getOutLink m.ord switchId port = some l := by
  unfold getOutLinks at h
  cases hs : flowEntries.foldlM (m.addOutLinks switchId) ⟨[], []⟩ with
  | error stop =>
    rw [hs] at h
    cases h
  | ok s =>
    rw [hs] at h
    cases h
    rw [(of_addOutLinks PortLinks.of_nil hs).mem_links, List.nil_append]
    simp only [mem_entryOutPorts]
    constructor
    · rintro ⟨port, ⟨entry, hentry, actions, hactions, hport⟩, hlink⟩
      exact ⟨entry, hentry, actions, hactions, port, hport, hlink⟩
    · rintro ⟨entry, hentry, actions, hactions, port, hport, hlink⟩
      exact ⟨port, ⟨entry, hentry, actions, hactions, hport⟩, hlink⟩

/-! ## What the incoming links are -/

/-- The in-ports of the entries that have one. -/
def inPorts (flowEntries : List OFFlowStatsEntry) : List OFPort := flowEntries.filterMap (·.inPort)

variable (m switchId) in
/-- No entry without an in-port comes when the last in-port before it has a known link. -/
def NoneCarried (seen : List OFPort) (flowEntries : List OFFlowStatsEntry) : Prop :=
  ∀ front entry back, flowEntries = front ++ entry :: back → entry.inPort = none →
    (seen ++ inPorts front).getLast?.bind (m.outLink switchId) = none

variable {seen : List OFPort} {entry : OFFlowStatsEntry}

theorem noneCarried_nil : m.NoneCarried switchId seen [] := by
  intro front entry back h
  cases front <;> cases h

theorem noneCarried_cons : m.NoneCarried switchId seen (entry :: flowEntries) ↔
    (entry.inPort = none → seen.getLast?.bind (m.outLink switchId) = none) ∧
      m.NoneCarried switchId (seen ++ entry.inPort.toList) flowEntries := by
  have hports : ∀ front, inPorts (entry :: front) = entry.inPort.toList ++ inPorts front := by
    intro front
    unfold inPorts
    cases hport : entry.inPort <;> simp [hport]
  constructor
  · intro h
    refine ⟨fun hport => ?_, fun front e back hsplit he => ?_⟩
    · have hfirst := h [] entry flowEntries rfl hport
      rwa [show inPorts [] = [] from rfl, List.append_nil] at hfirst
    · have hlater := h (entry :: front) e back (by rw [hsplit, List.cons_append]) he
      rwa [hports, ← List.append_assoc] at hlater
  · rintro ⟨hfirst, hlater⟩ front e back hsplit he
    cases front with
    | nil =>
      obtain ⟨rfl, rfl⟩ := List.cons.inj hsplit
      rw [show inPorts [] = [] from rfl, List.append_nil]
      exact hfirst he
    | cons e' front =>
      obtain ⟨rfl, rfl⟩ := List.cons.inj hsplit
      rw [hports, ← List.append_assoc]
      exact hlater front e back rfl he

/-- What the loop has before an entry: the links of the in-ports, and the link of the last one. -/
structure Incomming.At (m : OFMStateManager) (switchId : Dpid) (seen : List OFPort) (s : Incomming) :
    Prop where
  found : s.found.Of (m.inLink switchId) seen
  link : s.link = seen.getLast?.bind (m.outLink switchId)

variable {s s' : Incomming}

theorem at_nil : Incomming.At m switchId [] ⟨⟨[], []⟩, none⟩ := ⟨PortLinks.of_nil, rfl⟩

/-- An entry is passed unless it has no in-port while there is a link. -/
theorem addIncommingLink_eq_ok (h : s.At m switchId seen)
    (hport : entry.inPort = none → seen.getLast?.bind (m.outLink switchId) = none) :
    ∃ s', m.addIncommingLink switchId s entry = .ok s' ∧
      s'.At m switchId (seen ++ entry.inPort.toList) := by
  obtain ⟨hfound, hlink⟩ := h
  unfold addIncommingLink
  cases hin : entry.inPort with
  | none =>
    rw [hport hin] at hlink
    dsimp only
    rw [hlink]
    refine ⟨_, rfl, ?_, ?_⟩
    · rw [Option.toList_none, List.append_nil]
      exact hfound
    · rw [Option.toList_none, List.append_nil, hport hin]
  | some port =>
    have hlast : (seen ++ [port]).getLast? = some port := by simp
    dsimp only
    cases hknown : m.outLink switchId port with
    | none =>
      have hnone : m.inLink switchId port = none := by rw [inLink, hknown, Option.map_none]
      refine ⟨_, rfl, hfound.skip hnone, ?_⟩
      rw [Option.toList_some, hlast, Option.bind_some, hknown]
    | some known =>
      have hsome : m.inLink switchId port = some known.reverse := by rw [inLink, hknown, Option.map_some]
      refine ⟨_, rfl, hfound.add hsome, ?_⟩
      rw [Option.toList_some, hlast, Option.bind_some, hknown]

theorem addIncommingLink_error (h : s.At m switchId seen) (hport : entry.inPort = none)
    (hlink : seen.getLast?.bind (m.outLink switchId) ≠ none) :
    m.addIncommingLink switchId s entry = .error .exception := by
  obtain ⟨known, hknown⟩ := Option.ne_none_iff_exists'.1 hlink
  unfold addIncommingLink
  rw [hport]
  dsimp only
  rw [h.link, hknown]

theorem addIncommingLinks_eq_ok (h : s.At m switchId seen) (hnone : m.NoneCarried switchId seen flowEntries) :
    ∃ s', flowEntries.foldlM (m.addIncommingLink switchId) s = .ok s' ∧
      s'.At m switchId (seen ++ inPorts flowEntries) := by
  induction flowEntries generalizing s seen with
  | nil =>
    refine ⟨s, rfl, ?_⟩
    rw [show inPorts [] = [] from rfl, List.append_nil]
    exact h
  | cons entry flowEntries ih =>
    obtain ⟨hfirst, hlater⟩ := noneCarried_cons.1 hnone
    obtain ⟨s₁, hs₁, hat⟩ := addIncommingLink_eq_ok h hfirst
    obtain ⟨s', hs', hat'⟩ := ih hat hlater
    refine ⟨s', ?_, ?_⟩
    · rw [List.foldlM_cons, hs₁]
      exact hs'
    · rw [List.append_assoc] at hat'
      convert hat' using 2
      unfold inPorts
      cases hport : entry.inPort <;> simp [hport]

theorem addIncommingLinks_error (h : s.At m switchId seen)
    (hcarried : ¬m.NoneCarried switchId seen flowEntries) :
    flowEntries.foldlM (m.addIncommingLink switchId) s = .error .exception := by
  induction flowEntries generalizing s seen with
  | nil => exact absurd noneCarried_nil hcarried
  | cons entry flowEntries ih =>
    rw [List.foldlM_cons]
    by_cases hfirst : entry.inPort = none → seen.getLast?.bind (m.outLink switchId) = none
    · obtain ⟨s₁, hs₁, hat⟩ := addIncommingLink_eq_ok h hfirst
      rw [hs₁]
      exact ih hat fun hlater => hcarried (noneCarried_cons.2 ⟨hfirst, hlater⟩)
    · push Not at hfirst
      rw [addIncommingLink_error h hfirst.1 hfirst.2]
      rfl

/-- The links come from the in-ports that have a known link, each once. -/
structure ReversesOf (m : OFMStateManager) (switchId : Dpid) (flowEntries : List OFFlowStatsEntry)
    (links : List Link) : Prop where
  nodup : links.Nodup
  mem : ∀ link, link ∈ links ↔ ∃ entry ∈ flowEntries, ∃ port, entry.inPort = some port ∧
    ∃ known, m.linkDiscoveryService.getOutLink m.ord switchId port = some known ∧ known.reverse = link

theorem getIncommingLinks_eq_ok (hnone : m.NoneCarried switchId [] flowEntries) :
    ∃ links, m.getIncommingLinks switchId flowEntries = .ok links ∧
      ReversesOf m switchId flowEntries links := by
  obtain ⟨s, hs, hat⟩ := addIncommingLinks_eq_ok at_nil hnone
  refine ⟨s.found.links, ?_, hat.found.nodup_links inLink_injective, fun link => ?_⟩
  · unfold getIncommingLinks
    rw [hs]
    rfl
  · rw [hat.found.mem_links, List.nil_append]
    unfold inPorts
    simp only [List.mem_filterMap, inLink_eq_some]
    constructor
    · rintro ⟨port, ⟨entry, hentry, hport⟩, hknown⟩
      exact ⟨entry, hentry, port, hport, hknown⟩
    · rintro ⟨entry, hentry, port, hport, hknown⟩
      exact ⟨port, ⟨entry, hentry, hport⟩, hknown⟩

theorem getIncommingLinks_error (hcarried : ¬m.NoneCarried switchId [] flowEntries) :
    m.getIncommingLinks switchId flowEntries = .error .exception := by
  unfold getIncommingLinks
  rw [addIncommingLinks_error at_nil hcarried]
  rfl

theorem reversesOf_getIncommingLinks (h : m.getIncommingLinks switchId flowEntries = .ok links) :
    ReversesOf m switchId flowEntries links := by
  by_cases hnone : m.NoneCarried switchId [] flowEntries
  · obtain ⟨links', hlinks', hreverses⟩ := getIncommingLinks_eq_ok hnone
    cases h.symm.trans hlinks'
    exact hreverses
  · rw [getIncommingLinks_error hnone] at h
    cases h

theorem exists_getIncommingLinks_iff :
    (∃ links, m.getIncommingLinks switchId flowEntries = .ok links) ↔
      m.NoneCarried switchId [] flowEntries := by
  constructor
  · rintro ⟨links, h⟩
    by_contra hcarried
    rw [getIncommingLinks_error hcarried] at h
    cases h
  · intro hnone
    obtain ⟨links, h, -⟩ := getIncommingLinks_eq_ok hnone
    exact ⟨links, h⟩

variable (m switchId flowEntries) in
/-- The incoming links are right exactly if no link is left for an entry without an in-port. -/
theorem incommingLinks_right_iff :
    (∃ links, m.getIncommingLinks switchId flowEntries = .ok links ∧
      ReversesOf m switchId flowEntries links) ↔ m.NoneCarried switchId [] flowEntries := by
  refine ⟨fun h => ?_, getIncommingLinks_eq_ok⟩
  obtain ⟨links, hlinks, -⟩ := h
  exact exists_getIncommingLinks_iff.1 ⟨links, hlinks⟩

/-- A switch with a link at its port 1. -/
def oneLink : OFMStateManager where
  switches := [1, 2]
  linkDiscoveryService :=
    { Links.empty with links := (∅ : HashMap Link LinkInfo).put ⟨1, 1, 2, 1⟩ ⟨0, none, none, ∅, ∅⟩ }
  ord := .insertion
  getSwitchStatistics _ _ := []

/-- Behind an entry with the in-port of a link, an entry without an in-port fails. -/
theorem not_incommingLinks_right :
    ¬∀ (m : OFMStateManager) switchId flowEntries, ∃ links,
      m.getIncommingLinks switchId flowEntries = .ok links ∧ ReversesOf m switchId flowEntries links := by
  intro h
  obtain ⟨links, hlinks, -⟩ := h oneLink 1 [⟨some 1, some []⟩, ⟨none, some []⟩]
  have herror : oneLink.getIncommingLinks 1 [⟨some 1, some []⟩, ⟨none, some []⟩] = .error .exception := by
    decide +kernel
  rw [herror] at hlinks
  cases hlinks

end OFMStateManager

end Torpedo
