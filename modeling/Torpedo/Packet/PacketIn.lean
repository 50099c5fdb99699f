import Torpedo.Controller.Batches
import Torpedo.Packet.Whole

/-!
# Malformed packets

A frame that is not whole makes the decoder of its packet-in throw. Nothing catches the exception before
the thread that processes the messages, and it ends.
-/

namespace Torpedo

variable {σ : Type}

/-- The modules decode the frame of a packet-in before they do anything else with it. -/
def Handlers.decoding (h : Handlers σ)
    (f : Controller σ → ℕ → Option Ethernet → HandlerResult × σ × List OFRequest) : Handlers σ :=
  { h with
    handlePacketIn := fun s c m =>
      match m with
      | .packetIn data =>
        match Ethernet.deserialize data 0 data.length with
        | .ok eth => f s c eth
        | .error _ => (.thrown, s.modules, [])
      | m => h.handlePacketIn s c m }

namespace Controller

variable {h : Handlers σ} {s : Controller σ} {c : ℕ} {data : List UInt8}

/-- A packet-in of a switch with an id is handed to the modules. -/
theorem process_packetIn (hlive : s.isConnected c = true) (hid : s.getId c ≠ none) :
    (s.process h c (.packetIn data)).1 = (h.handlePacketIn s c (.packetIn data)).1 := by
  unfold process
  cases hconn : s.conns.get c with
  | none =>
    unfold isConnected at hlive
    rw [hconn] at hlive
    cases hlive
  | some conn =>
    rw [isConnected_of_get hconn] at hlive
    have hsw := getSwitch_of_get hconn
    simp only [hlive, Bool.true_eq_false, if_false]
    cases hconnsw : conn.sw with
    | none =>
      unfold getId at hid
      rw [hsw, hconnsw] at hid
      exact absurd rfl hid
    | some sw =>
      dsimp only
      rw [if_neg hid]
      exact outcome_call _

end Controller

namespace QP

variable {h : Handlers σ} {s : Controller σ} {c : ℕ} {m : OFMessage}

/-- A single message ends the thread if and only if `process` throws. -/
theorem ended_run (hlive : s.isConnected c = true) :
    (run h [⟨c, [m]⟩] (start s)).ended = true ↔ (s.process h c m).1 = .thrown := by
  have hrun : run h [⟨c, [m]⟩] (start s) = process h c [m] (start s) := if_pos hlive
  have hended : ((start s).hand h c m).2.ended = decide ((s.process h c m).1 = .thrown) := rfl
  have houtcome : ((start s).hand h c m).1 = (s.process h c m).1 := rfl
  rw [hrun]
  unfold process
  cases hhand : (start s).hand h c m with
  | mk outcome q =>
    rw [hhand] at hended houtcome
    have hended : q.ended = decide ((s.process h c m).1 = .thrown) := hended
    rw [← decide_eq_true_iff (p := (s.process h c m).1 = .thrown), ← hended]
    cases outcome with
    | thrown => rfl
    | returned handled => cases handled <;> rfl

/-- **Malformed packets.** The decoder of Ethernet frames returns normally for some bytes, fourteen at
least, if and only if these are whole packets. With modules that do not throw otherwise, a packet-in with
these bytes ends the thread if and only if they are not. -/
theorem decodes_iff (data : List UInt8) (offset length : ℕ) (hlength : 14 ≤ length)
    (hfit : offset + length ≤ data.length) :
    ((∃ eth, Ethernet.deserialize data offset length = .ok eth) ↔
      Ethernet.Whole (slice data offset length)) ∧
    ∀ (σ : Type) (h : Handlers σ)
      (f : Controller σ → ℕ → Option Ethernet → HandlerResult × σ × List OFRequest)
      (s : Controller σ) (c : ℕ), (∀ s c eth, (f s c eth).1 ≠ .thrown) → s.isConnected c = true →
      s.getId c ≠ none →
      ((run (h.decoding f) [⟨c, [.packetIn (slice data offset length)]⟩] (start s)).ended = true ↔
        ¬Ethernet.Whole (slice data offset length)) := by
  refine ⟨(Ethernet.decides data offset length (by omega) hfit).iff, ?_⟩
  intro σ h f s c hf hlive hid
  have hlen : (slice data offset length).length = length := by
    unfold slice
    rw [List.length_take, List.length_drop]
    omega
  have hdecides := Ethernet.decides (slice data offset length) 0 (slice data offset length).length
    (by omega) (by omega)
  have hself : slice (slice data offset length) 0 (slice data offset length).length =
      slice data offset length := List.take_length
  rw [hself] at hdecides
  rw [ended_run hlive, Controller.process_packetIn hlive hid]
  unfold Handlers.decoding
  dsimp only
  by_cases hwhole : Ethernet.Whole (slice data offset length)
  · obtain ⟨eth, heth⟩ := hdecides.1 hwhole
    rw [heth]
    exact ⟨fun h => absurd h (hf s c eth), fun h => absurd hwhole h⟩
  · rw [hdecides.2 hwhole]
    exact ⟨fun _ => hwhole, fun _ => rfl⟩

/-- An ARP frame that ends behind the header of the frame. -/
def arpHeader : List UInt8 := [255, 255, 255, 255, 255, 255, 0, 0, 0, 0, 0, 1, 8, 6]

theorem decodes_iff_arpHeader :
    ((∃ eth, Ethernet.deserialize arpHeader 0 14 = .ok eth) ↔ Ethernet.Whole (slice arpHeader 0 14)) ∧
    ∀ (σ : Type) (h : Handlers σ)
      (f : Controller σ → ℕ → Option Ethernet → HandlerResult × σ × List OFRequest)
      (s : Controller σ) (c : ℕ), (∀ s c eth, (f s c eth).1 ≠ .thrown) → s.isConnected c = true →
      s.getId c ≠ none →
      ((run (h.decoding f) [⟨c, [.packetIn (slice arpHeader 0 14)]⟩] (start s)).ended = true ↔
        ¬Ethernet.Whole (slice arpHeader 0 14)) :=
  decodes_iff arpHeader 0 14 (by decide) (by decide)

/-- The decoder throws, though the frame has fourteen bytes. -/
theorem not_decodes_arpHeader :
    ¬∀ data : List UInt8, 14 ≤ data.length →
      ∃ eth, Ethernet.deserialize data 0 data.length = .ok eth := by
  intro hall
  obtain ⟨eth, heth⟩ := hall arpHeader (by decide)
  have hthrow : Ethernet.deserialize arpHeader 0 14 = .error .exception := by rfl
  exact absurd (hthrow.symm.trans heth) nofun

end QP

end Torpedo
