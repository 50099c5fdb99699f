import Torpedo.Controller.Sessions

/-!
# Batches of messages

`QP`, the thread that takes the messages of a connection in the batches in which they were read. A
message that `process` refuses ends its batch, and nothing else. So the batches matter if and only if
some message but the last is refused.
-/

namespace Torpedo

/-- `QI`: the messages of one read. -/
structure QI where
  conn : ℕ
  msgs : List OFMessage

/-- `QP`: the controller, the messages handed to `process` so far, and whether an exception has ended
the thread. -/
structure QP (σ : Type) where
  controller : Controller σ
  processed : List (ℕ × OFMessage)
  ended : Bool

namespace QP

variable {σ : Type} (h : Handlers σ) (c : ℕ)

def start (s : Controller σ) : QP σ := ⟨s, [], false⟩

/-- Hand a message to `OFProtocol.process`. -/
def hand (q : QP σ) (m : OFMessage) : HandlerResult × QP σ :=
  let r := q.controller.process h c m
  (r.1, ⟨r.2, q.processed ++ [(c, m)], r.1 = .thrown⟩)

/-- `process`. -/
def process : List OFMessage → QP σ → QP σ
  | [], q => q
  | m :: ms, q =>
    match q.hand h c m with
    | (.returned true, q) => process ms q
    | (.returned false, q) => q
    | (.thrown, q) => q

/-- `run`, for the items of the queue. -/
def run : List QI → QP σ → QP σ
  | [], q => q
  | item :: items, q =>
    if q.ended then q
    else if q.controller.isConnected item.conn then run items (process h item.conn item.msgs q)
    else run items q

/-- The items of the messages of one connection, in batches. -/
def items (batches : List (List OFMessage)) : List QI := batches.map (QI.mk c)

end QP

/-! ## Messages that are refused -/

namespace Controller

variable {σ : Type} (h : Handlers σ) (s : Controller σ) (c : ℕ)

/-- `process` returns `false` for a message of a live connection: an error; a message that needs the
switch object when there is none, or its id when there is none; or one that the controller's own
handler refuses. -/
def Refuses (m : OFMessage) : Prop :=
  match m, s.getSwitch c with
  | .error, _ => True
  | .featuresReply .., none => True
  | .featuresReply version xid d ports, some sw =>
    (h.handleGeneric (s.processFeaturesReply c sw m version xid d ports) c m).1 = .returned false
  | .portStatus _, none => True
  | .portStatus ps, some sw =>
    (h.handleGeneric (s.setProtocol fun p => p.updatePort sw ps) c m).1 = .returned false
  | .statsReply .., none => True
  | .packetIn _, some _ => s.getId c = none ∨ (h.handlePacketIn s c m).1 = .returned false
  | .flowRemoved, some _ => s.getId c = none ∨ (h.handlePacketIn s c m).1 = .returned false
  | .other _, _ => (h.handleGeneric s c m).1 = .returned false
  | .hello _, _ | .echoRequest .., _ | .statsReply .., some _ | .packetIn _, none
  | .flowRemoved, none => False

variable {h s c} {m : OFMessage}

theorem outcome_call (f : Controller σ → ℕ → OFMessage → HandlerResult × σ × List OFRequest) :
    (s.call f c m).1 = (f s c m).1 := rfl

/-- The messages of a live connection that `process` refuses. -/
theorem process_refuses (hlive : s.isConnected c = true) :
    (s.process h c m).1 = .returned false ↔ s.Refuses h c m := by
  unfold Refuses process
  cases hconn : s.conns.get c with
  | none =>
    unfold isConnected at hlive
    rw [hconn] at hlive
    cases hlive
  | some conn =>
    rw [isConnected_of_get hconn] at hlive
    rw [getSwitch_of_get hconn]
    simp only [hlive, Bool.true_eq_false, if_false]
    cases m with
    | packetIn data =>
      cases conn.sw with
      | none => simp
      | some sw =>
        dsimp only
        by_cases hid : s.getId c = none
        · simp [hid]
        · simp [hid, outcome_call]
    | flowRemoved =>
      cases conn.sw with
      | none => simp
      | some sw =>
        dsimp only
        by_cases hid : s.getId c = none
        · simp [hid]
        · simp [hid, outcome_call]
    | featuresReply version xid d ports => cases conn.sw <;> simp [outcome_call]
    | portStatus ps => cases conn.sw <;> simp [outcome_call]
    | statsReply xid stats replyMore => cases conn.sw <;> simp
    | hello version => simp
    | error => simp
    | echoRequest version xid data => simp
    | other type => simp [outcome_call]

theorem isConnected_process : (s.process h c m).2.isConnected = s.isConnected := by
  funext x
  unfold isConnected
  rw [conns_process]

end Controller

/-! ## One message at a time -/

namespace QP

variable {σ : Type} {h : Handlers σ} {c : ℕ} {q : QP σ} {m : OFMessage} {ms : List OFMessage}

/-- Hand over a message by itself. -/
def receive (h : Handlers σ) (c : ℕ) (q : QP σ) (m : OFMessage) : QP σ :=
  if q.ended then q else (q.hand h c m).2

/-- The thread lives, and the message is refused. -/
def Refused (h : Handlers σ) (c : ℕ) (q : QP σ) (m : OFMessage) : Prop :=
  q.ended = false ∧ q.controller.Refuses h c m

theorem receive_ended (hq : q.ended = true) : receive h c q m = q := by
  unfold receive
  rw [if_pos hq]

theorem run_receive_ended (hq : q.ended = true) : Machine.run (receive h c) q ms = q := by
  induction ms with
  | nil => rfl
  | cons m ms ih =>
    rw [Machine.run_cons, receive_ended hq]
    exact ih

theorem isConnected_receive : (receive h c q m).controller.isConnected = q.controller.isConnected := by
  unfold receive
  split_ifs
  · rfl
  · exact Controller.isConnected_process

theorem live_run (hlive : q.controller.isConnected c = true) (ms : List OFMessage) :
    (Machine.run (receive h c) q ms).controller.isConnected c = true :=
  Machine.run_invariant (I := fun q : QP σ => q.controller.isConnected c = true)
    (fun q m hq => by rw [isConnected_receive]; exact hq) hlive ms

/-- A batch in which at most the last message is refused. -/
theorem process_eq_run (hlive : q.controller.isConnected c = true) (hq : q.ended = false)
    (hc : Machine.Clean (receive h c) (Refused h c) q ms.dropLast) :
    process h c ms q = Machine.run (receive h c) q ms := by
  induction ms generalizing q with
  | nil => rfl
  | cons m ms ih =>
    have hstep : receive h c q m = (q.hand h c m).2 := by
      unfold receive
      rw [if_neg (by rw [hq]; exact nofun)]
    unfold process
    rw [Machine.run_cons, hstep]
    cases hr : q.hand h c m with
    | mk outcome q' =>
      rw [hr] at hstep
      have houtcome : outcome = (q.controller.process h c m).1 := (congrArg Prod.fst hr).symm
      have hended : q'.ended = decide ((q.controller.process h c m).1 = .thrown) :=
        (congrArg (fun r => r.2.ended) hr).symm
      cases outcome with
      | thrown =>
        rw [← houtcome] at hended
        exact (run_receive_ended hended).symm
      | returned handled =>
        cases handled with
        | true =>
          have hnext : receive h c q m = q' := hstep
          refine ih ?_ (hended.trans (by rw [← houtcome]; rfl)) ?_
          · rw [← hnext, isConnected_receive]
            exact hlive
          · cases ms with
            | nil => trivial
            | cons m' ms => exact hnext ▸ hc.2
        | false =>
          -- only the last message may be refused
          cases ms with
          | nil => rfl
          | cons m' ms =>
            exact absurd ⟨hq, (Controller.process_refuses hlive).1 houtcome.symm⟩ hc.1

theorem run_cons (item : QI) (is : List QI) :
    run h (item :: is) q =
      if q.ended then q
      else if q.controller.isConnected item.conn then run h is (process h item.conn item.msgs q)
      else run h is q := rfl

theorem run_ended (hq : q.ended = true) (is : List QI) : run h is q = q := by
  cases is with
  | nil => rfl
  | cons i is => rw [run_cons, if_pos hq]

/-- Batches of which at most the last message of the last is refused. -/
theorem run_eq_run (batches : List (List OFMessage)) (hlive : q.controller.isConnected c = true)
    (hc : Machine.Clean (receive h c) (Refused h c) q batches.flatten.dropLast) :
    run h (items c batches) q = Machine.run (receive h c) q batches.flatten := by
  induction batches generalizing q with
  | nil => rfl
  | cons b batches ih =>
    show run h (⟨c, b⟩ :: items c batches) q = _
    unfold run
    by_cases hq : q.ended = true
    · rw [if_pos hq, run_receive_ended hq]
    · rw [if_neg hq, if_pos hlive]
      rw [List.flatten_cons] at hc ⊢
      rw [Machine.run_append]
      have hb : Machine.Clean (receive h c) (Refused h c) q b.dropLast ∧
          Machine.Clean (receive h c) (Refused h c) (Machine.run (receive h c) q b)
            batches.flatten.dropLast := by
        by_cases hnil : batches.flatten = []
        · rw [hnil, List.append_nil] at hc
          rw [hnil]
          exact ⟨hc, trivial⟩
        · rw [List.dropLast_append_of_ne_nil hnil] at hc
          have hb := hc.prefix
          refine ⟨?_, hc.suffix⟩
          obtain rfl | ⟨b', m, rfl⟩ := List.eq_nil_or_concat b
          · trivial
          · rw [List.concat_eq_append] at hb ⊢
            rw [List.dropLast_concat]
            exact hb.prefix
      show run h (items c batches) (process h c b q) = _
      rw [process_eq_run hlive (Bool.not_eq_true _ ▸ hq) hb.1]
      exact ih (live_run hlive b) hb.2

/-! ## The batches do not matter -/

theorem length_receive (hq : q.ended = false) :
    (receive h c q m).processed.length = q.processed.length + 1 := by
  unfold receive
  rw [if_neg (by rw [hq]; exact nofun)]
  exact List.length_append

theorem length_le_run (ms : List OFMessage) :
    q.processed.length ≤ (Machine.run (receive h c) q ms).processed.length := by
  induction ms generalizing q with
  | nil => exact le_rfl
  | cons m ms ih =>
    refine le_trans ?_ ih
    cases hq : q.ended with
    | true => rw [receive_ended hq]
    | false => rw [length_receive hq]; exact Nat.le_succ _

theorem flatten_singletons (ms : List OFMessage) : (ms.map fun m => [m]).flatten = ms := by
  induction ms with
  | nil => rfl
  | cons m ms ih => exact congrArg (m :: ·) ih

/-- With each message in a batch of its own every message is handed over. -/
theorem run_singletons (hlive : q.controller.isConnected c = true) (ms : List OFMessage) :
    run h (items c (ms.map fun m => [m])) q = Machine.run (receive h c) q ms := by
  induction ms generalizing q with
  | nil => rfl
  | cons m ms ih =>
    show run h (⟨c, [m]⟩ :: items c (ms.map fun m => [m])) q = _
    unfold run
    rw [Machine.run_cons]
    by_cases hq : q.ended = true
    · rw [if_pos hq, receive_ended hq, run_receive_ended hq]
    · rw [if_neg hq, if_pos hlive]
      show run h (items c (ms.map fun m => [m])) (process h c [m] q) = _
      have hone : process h c [m] q = Machine.run (receive h c) q [m] :=
        process_eq_run hlive (Bool.not_eq_true _ ▸ hq) trivial
      rw [hone]
      exact ih (live_run hlive [m])

theorem run_append (is is' : List QI) : run h (is ++ is') q = run h is' (run h is q) := by
  induction is generalizing q with
  | nil => rfl
  | cons i is ih =>
    rw [List.cons_append, run_cons, run_cons]
    split_ifs with hq hlive
    · exact (run_ended hq is').symm
    · exact ih
    · exact ih

/-- A batch ends with a message that is refused. -/
theorem process_refused (hlive : q.controller.isConnected c = true) (hm : Refused h c q m) :
    process h c (m :: ms) q = receive h c q m := by
  have houtcome := (Controller.process_refuses hlive).2 hm.2
  unfold process receive
  rw [if_neg (by rw [hm.1]; exact nofun)]
  cases hr : q.hand h c m with
  | mk outcome q' =>
    have heq : outcome = (q.controller.process h c m).1 := (congrArg Prod.fst hr).symm
    rw [heq, houtcome]

theorem ended_receive (hlive : q.controller.isConnected c = true) (hm : Refused h c q m) :
    (receive h c q m).ended = false := by
  have houtcome := (Controller.process_refuses hlive).2 hm.2
  unfold receive hand
  rw [if_neg (by rw [hm.1]; exact nofun)]
  simp [houtcome]

/-- If a message is refused before the last one, then it matters whether the rest is in its batch. -/
theorem run_ne_run (hlive : q.controller.isConnected c = true) {pre post : List OFMessage}
    (hpost : post ≠ []) (hm : Refused h c (Machine.run (receive h c) q pre) m) :
    run h (items c ((pre.map fun m => [m]) ++ [m :: post])) q ≠
      run h (items c ((pre ++ m :: post).map fun m => [m])) q := by
  have hlive' := live_run (h := h) hlive pre
  have hbatch : run h (items c ((pre.map fun m => [m]) ++ [m :: post])) q =
      receive h c (Machine.run (receive h c) q pre) m := by
    unfold items
    rw [List.map_append, run_append]
    show run h [⟨c, m :: post⟩] (run h (items c (pre.map fun m => [m])) q) = _
    rw [run_singletons hlive]
    unfold run
    rw [if_neg (by rw [hm.1]; exact nofun), if_pos hlive', process_refused hlive' hm]
    rfl
  obtain ⟨m', post, rfl⟩ := List.exists_cons_of_ne_nil hpost
  rw [hbatch, run_singletons hlive, Machine.run_append, Machine.run_cons, Machine.run_cons]
  intro heq
  -- the next message has been handed over in the one run and not in the other
  have hlonger := length_le_run (h := h) (c := c) (q := receive h c (receive h c
    (Machine.run (receive h c) q pre) m) m') post
  rw [length_receive (ended_receive hlive' hm), ← heq] at hlonger
  exact absurd hlonger (by omega)

/-- **Batches.** Whatever the handlers do, for a live connection: the messages that are handed to
`process` and the state afterwards are the same for all ways to put the messages into batches if and
only if, handed over one by one, none but the last is refused. -/
theorem run_eq_iff (h : Handlers σ) (c : ℕ) (s : Controller σ) (hlive : s.isConnected c = true)
    (ms : List OFMessage) :
    (∀ batches batches', batches.flatten = ms → batches'.flatten = ms →
      run h (items c batches) (start s) = run h (items c batches') (start s)) ↔
      Machine.Clean (receive h c) (Refused h c) (start s) ms.dropLast := by
  constructor
  · intro hall
    refine Machine.clean_iff.2 fun pre m post heq hm => ?_
    have hne : ms ≠ [] := by
      rintro rfl
      simp at heq
    have hms : ms = pre ++ m :: (post ++ [ms.getLast hne]) := by
      conv_lhs => rw [← List.dropLast_append_getLast hne, heq]
      simp
    have hpost : post ++ [ms.getLast hne] ≠ [] := by simp
    refine run_ne_run (q := start s) hlive hpost hm (hall _ _ ?_ ?_)
    · rw [List.flatten_append, flatten_singletons]
      conv_rhs => rw [hms]
      simp
    · rw [flatten_singletons]
      exact hms.symm
  · intro hc batches batches' hb hb'
    rw [run_eq_run batches hlive (by rw [hb]; exact hc), run_eq_run batches' hlive
      (by rw [hb']; exact hc), hb, hb']

/-- A controller with one connection. -/
def connection : Controller Unit :=
  Machine.run (Controller.handle .idle) (.new ()) [.accept "a", .connected 1]

theorem run_eq_iff_connection :
    (∀ batches batches', batches.flatten = [.hello .of13, .error] →
      batches'.flatten = [.hello .of13, .error] →
      run .idle (items 1 batches) (start connection) = run .idle (items 1 batches') (start connection)) ↔
      Machine.Clean (receive .idle 1) (Refused .idle 1) (start connection) [.hello .of13] :=
  run_eq_iff .idle 1 connection (by decide) [.hello .of13, .error]

/-- An echo request is not answered if it is read together with an error before it. -/
theorem not_run_eq_error :
    ¬∀ (σ : Type) (h : Handlers σ) (c : ℕ) (s : Controller σ), s.isConnected c = true →
      ∀ ms batches batches', batches.flatten = ms → batches'.flatten = ms →
        run h (items c batches) (start s) = run h (items c batches') (start s) := by
  intro hall
  have heq := hall Unit .idle 1 connection (by decide) [.error, .echoRequest .of13 0 []]
    [[.error, .echoRequest .of13 0 []]] [[.error], [.echoRequest .of13 0 []]] rfl rfl
  exact absurd (congrArg (fun q => q.processed.length) heq) (by decide)

end QP

end Torpedo
