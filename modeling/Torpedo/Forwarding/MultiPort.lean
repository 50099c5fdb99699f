import Mathlib.Algebra.Group.Nat.Even
import Torpedo.LinkDiscovery.Messages
import Torpedo.Packet.Actions
import Torpedo.Util.Alternation

/-!
# Packets for many ports

`packetOutMultiPort` goes over a set of ports with an iterator, and takes two ports in each round: the first one
as it is, and the second one cut to 16 bits. There has to be a second one.
-/

namespace Torpedo

/-- A number that `OFPort.of` takes. -/
def OFPort.IsNumber (port : Int32) : Prop := port ∈ named ∨ ¬(port < 0 ∧ max < port)

theorem OFPort.of_eq_ok_iff {number : Int32} {port : OFPort} :
    of number = .ok port ↔ IsNumber number ∧ port = number := by
  unfold of IsNumber
  split_ifs with hnamed hbetween
  · rw [Except.ok.injEq, eq_comm, and_iff_right (.inl hnamed)]
  · exact iff_of_false nofun fun h => h.1.elim hnamed fun hnot => hnot hbetween
  · rw [Except.ok.injEq, eq_comm, and_iff_right (.inr hbetween)]

namespace ForwardingBase

/-- `Integer.shortValue`, as an `int`. -/
def shortValue (port : Int32) : Int32 := port.toInt16.toInt32

/-- The loop over the iterator, which throws if there is no next port. -/
def outputActions : List Int32 → Except Stop (List OutputAction)
  | [] => .ok []
  | [port] => do
    let _ ← OFPort.of port
    throw .exception
  | port₁ :: port₂ :: outPorts => do
    let port₁ ← OFPort.of port₁
    let port₂ ← OFPort.of (shortValue port₂)
    let actions ← outputActions outPorts
    return ⟨port₁, 0⟩ :: ⟨port₂, 0⟩ :: actions

/-- The message that is written, for the ports in the order of the iterator. -/
def packetOutMultiPort (packetData : List UInt8) (inPort : Int16) (outPorts : List Int32) :
    Except Stop PacketOut := do
  let actions ← outputActions outPorts
  let inPort ← OFPort.of inPort.toInt32
  return ⟨noBuffer, inPort, actions, some packetData⟩

theorem shortValue_shortValue (port : Int32) : shortValue (shortValue port) = shortValue port := by
  unfold shortValue
  rw [Int16.toInt16_toInt32]

theorem outputActions_eq_ok_iff {outPorts : List Int32} {actions : List OutputAction} :
    outputActions outPorts = .ok actions ↔ Even outPorts.length ∧
      (∀ port ∈ mapSeconds shortValue outPorts, OFPort.IsNumber port) ∧
      actions = (mapSeconds shortValue outPorts).map (⟨·, 0⟩) := by
  fun_induction outputActions outPorts generalizing actions with
  | case1 => simp [mapSeconds, eq_comm]
  | case2 port =>
    refine iff_of_false ?_ fun h => absurd h.1 (by simp)
    cases OFPort.of port <;> exact nofun
  | case3 port₁ port₂ outPorts ih =>
    have heven : Even (port₁ :: port₂ :: outPorts).length ↔ Even outPorts.length := by
      simp [Nat.even_add_one]
    rw [heven, mapSeconds, List.forall_mem_cons, List.forall_mem_cons, List.map_cons, List.map_cons]
    constructor
    · intro h
      obtain ⟨_, h₁, h⟩ := of_bind_eq_ok h
      obtain ⟨_, h₂, h⟩ := of_bind_eq_ok h
      obtain ⟨rest, hrest, h⟩ := of_bind_eq_ok h
      obtain ⟨hnumber₁, rfl⟩ := OFPort.of_eq_ok_iff.1 h₁
      obtain ⟨hnumber₂, rfl⟩ := OFPort.of_eq_ok_iff.1 h₂
      obtain ⟨hsize, hnumbers, rfl⟩ := ih.1 hrest
      cases h
      exact ⟨hsize, ⟨hnumber₁, hnumber₂, hnumbers⟩, rfl⟩
    · rintro ⟨hsize, ⟨hnumber₁, hnumber₂, hnumbers⟩, rfl⟩
      rw [OFPort.of_eq_ok_iff.2 ⟨hnumber₁, rfl⟩, OFPort.of_eq_ok_iff.2 ⟨hnumber₂, rfl⟩,
        ih.2 ⟨hsize, hnumbers, rfl⟩]
      rfl

/-- One message is written, with one output action for each port. -/
def SendsToAll (packetData : List UInt8) (inPort : Int16) (outPorts : List Int32) : Prop :=
  ∃ message, packetOutMultiPort packetData inPort outPorts = .ok message ∧
    message.data = some packetData ∧ (message.actions.map (·.port)).Perm outPorts

/-- When a packet is sent to all ports. -/
theorem sendsToAll_iff (packetData : List UInt8) (inPort : Int16) (outPorts : List Int32) :
    SendsToAll packetData inPort outPorts ↔ Even outPorts.length ∧ OFPort.IsNumber inPort.toInt32 ∧
      (∀ port ∈ outPorts, OFPort.IsNumber port) ∧ ∀ port ∈ seconds outPorts, shortValue port = port := by
  have hports : ((mapSeconds shortValue outPorts).map fun port => (⟨port, 0⟩ : OutputAction)).map (·.port) =
      mapSeconds shortValue outPorts := by
    rw [List.map_map]
    exact List.map_id _
  constructor
  · rintro ⟨message, h, -, hperm⟩
    obtain ⟨actions, hactions, h⟩ := of_bind_eq_ok h
    obtain ⟨_, hin, h⟩ := of_bind_eq_ok h
    obtain ⟨hsize, hnumbers, rfl⟩ := outputActions_eq_ok_iff.1 hactions
    cases h
    rw [hports] at hperm
    exact ⟨hsize, (OFPort.of_eq_ok_iff.1 hin).1, fun port hport => hnumbers port (hperm.mem_iff.2 hport),
      (mapSeconds_perm_self_iff shortValue_shortValue).1 hperm⟩
  · rintro ⟨hsize, hin, hnumbers, hshort⟩
    have hsame := mapSeconds_eq hshort
    have hactions : outputActions outPorts = .ok ((mapSeconds shortValue outPorts).map (⟨·, 0⟩)) :=
      outputActions_eq_ok_iff.2 ⟨hsize, by rwa [hsame], rfl⟩
    refine ⟨⟨noBuffer, inPort.toInt32, (mapSeconds shortValue outPorts).map (⟨·, 0⟩), some packetData⟩, ?_, rfl, ?_⟩
    · unfold packetOutMultiPort
      rw [hactions, OFPort.of_eq_ok_iff.2 ⟨hin, rfl⟩]
      rfl
    · rw [hports, hsame]

/-- There is no second port. -/
theorem not_sendsToAll : ¬∀ (packetData : List UInt8) (inPort : Int16) (outPorts : List Int32),
    outPorts.Nodup → SendsToAll packetData inPort outPorts := by
  intro hall
  obtain ⟨message, h, -⟩ := hall [] 1 [2] (by decide)
  exact nomatch (show packetOutMultiPort [] 1 [2] = .error .exception from rfl).symm.trans h

end ForwardingBase

end Torpedo
