import Mathlib.Data.List.Infix
import Torpedo.MessageDamper.MessageDamper

/-!
# What is dampened

The cache holds the time at which an entry was passed last, if that has not been evicted since (`Sound.cached`). So a
call that finds a time not too long ago drops a message that has been written, and a call that replaces an old time is
the first one that does. A call that loses the replacement drops its message too: another call has been quicker, or
the entry has been evicted. The time of that other call may be older than the timeout.
-/

set_option linter.unusedSectionVars false

namespace Torpedo

namespace OFMessageDamper

open DamperEvent

variable {μ ς τ : Type} [DecidableEq μ] [DecidableEq ς]
variable {d : OFMessageDamper μ τ} {s s' : DamperState μ ς} {call : ℕ} {entry : DamperEntry μ ς} {curr : ℤ}

/-- What holds of a log: times that were passed one after the other are far apart, and each message that was dropped
is explained. -/
structure Justified (d : OFMessageDamper μ τ) (log : List (DamperEvent μ ς)) : Prop where
  paced : 0 ≤ d.timeoutInterval → ∀ earlier, earlier <:+ log → ∀ entry,
    (since entry earlier).Pairwise fun t t' => d.timeoutInterval < t - t'
  explained : ∀ later call entry curr earlier, log = later ++ .dampened call entry curr :: earlier →
    Explained d.timeoutInterval call entry curr earlier
  dampens : ∀ call entry curr, .dampened call entry curr ∈ log ∨ .passed call entry curr ∈ log →
    d.getType entry.msg ∈ d.msgTypesToCache

/-- The calls that have found an old entry, and the others that have not returned. -/
structure Sound (d : OFMessageDamper μ τ) (s : DamperState μ ς) : Prop where
  cached : ∀ entry, s.cache.get entry = (since entry s.log).head?
  justified : d.Justified s.log
  expired : ∀ call entry curr prev, s.calls.get call = some (entry, .expired curr prev) →
    curr - prev > d.timeoutInterval ∧
      ∃ later earlier, s.log = later ++ .expired call entry curr prev :: earlier ∧
        (since entry earlier).head? = some prev
  typed : ∀ call entry c, s.calls.get call = some (entry, c) → (∀ written, c ≠ .returned written) →
    d.getType entry.msg ∈ d.msgTypesToCache

theorem Justified.cons {log : List (DamperEvent μ ς)} (h : d.Justified log) (event : DamperEvent μ ς)
    (hpaced : 0 ≤ d.timeoutInterval → ∀ entry,
      (since entry (event :: log)).Pairwise fun t t' => d.timeoutInterval < t - t')
    (hexplained : ∀ call entry curr, event = .dampened call entry curr →
      Explained d.timeoutInterval call entry curr log)
    (hdampens : ∀ call entry curr, event = .dampened call entry curr ∨ event = .passed call entry curr →
      d.getType entry.msg ∈ d.msgTypesToCache) : d.Justified (event :: log) where
  paced h0 earlier hsuffix := by
    obtain rfl | hsuffix := List.suffix_cons_iff.1 hsuffix
    · exact hpaced h0
    · exact h.paced h0 earlier hsuffix
  explained later call entry curr earlier heq := by
    cases later with
    | nil =>
      obtain ⟨rfl, rfl⟩ := List.cons.inj heq
      exact hexplained call entry curr rfl
    | cons e later =>
      obtain ⟨-, heq⟩ := List.cons.inj heq
      exact h.explained later call entry curr earlier heq
  dampens call entry curr hmem := by
    rw [List.mem_cons, List.mem_cons] at hmem
    rcases hmem with (heq | hmem) | (heq | hmem)
    · exact hdampens call entry curr (.inl heq.symm)
    · exact h.dampens call entry curr (.inl hmem)
    · exact hdampens call entry curr (.inr heq.symm)
    · exact h.dampens call entry curr (.inr hmem)

/-! ## One step -/

theorem get_goOn (s : DamperState μ ς) (call : ℕ) (entry : DamperEntry μ ς) (c : UpdateCall) (call' : ℕ) :
    (goOn s call entry c).calls.get call' = if call' = call then some (entry, c) else s.calls.get call' :=
  HashMap.get_put ..

/-- Nothing but the call that goes on has changed. -/
theorem Sound.goOn (h : d.Sound s) (call : ℕ) (entry : DamperEntry μ ς) (c : UpdateCall)
    (hexpired : ∀ curr prev, c ≠ .expired curr prev)
    (htyped : (∀ written, c ≠ .returned written) → d.getType entry.msg ∈ d.msgTypesToCache) :
    d.Sound (goOn s call entry c) where
  cached := h.cached
  justified := h.justified
  expired call' entry' curr prev hget := by
    rw [get_goOn] at hget
    split_ifs at hget
    · cases hget
      exact absurd rfl (hexpired curr prev)
    · exact h.expired call' entry' curr prev hget
  typed call' entry' c' hget := by
    rw [get_goOn] at hget
    split_ifs at hget
    · cases hget
      exact htyped
    · exact h.typed call' entry' c' hget

theorem Sound.returned (h : d.Sound s) (call : ℕ) (entry : DamperEntry μ ς) (written : Bool) :
    d.Sound (OFMessageDamper.goOn s call entry (.returned written)) :=
  h.goOn call entry (.returned written) (fun _ _ => nofun) fun h => absurd rfl (h written)

/-- An event is logged that changes no entry. -/
theorem Sound.logged (h : d.Sound s) (event : DamperEvent μ ς) (hsince : ∀ entry, since entry (event :: s.log) =
      since entry s.log) (hexplained : ∀ call entry curr, event = .dampened call entry curr →
      Explained d.timeoutInterval call entry curr s.log ∧ d.getType entry.msg ∈ d.msgTypesToCache)
    (hpassed : ∀ call entry curr, event ≠ .passed call entry curr) : d.Sound { s with log := event :: s.log } where
  cached entry := (h.cached entry).trans (congrArg List.head? (hsince entry).symm)
  justified := by
    refine h.justified.cons event (fun h0 entry => ?_) (fun call entry curr heq => (hexplained call entry curr heq).1) ?_
    · rw [hsince]
      exact h.justified.paced h0 s.log List.suffix_rfl entry
    · rintro call entry curr (heq | heq)
      · exact (hexplained call entry curr heq).2
      · exact absurd heq (hpassed call entry curr)
  expired call entry curr prev hget := by
    obtain ⟨hold, later, earlier, hlog, hhead⟩ := h.expired call entry curr prev hget
    exact ⟨hold, event :: later, earlier, congrArg (event :: ·) hlog, hhead⟩
  typed := h.typed

/-- A message is written whose entry has not been passed lately. -/
theorem Sound.pass (h : d.Sound s) (htyped : d.getType entry.msg ∈ d.msgTypesToCache)
    (hold : ∀ prev, s.cache.get entry = some prev → curr - prev > d.timeoutInterval) :
    d.Sound (pass s call entry curr) where
  cached entry' := by
    show (s.cache.put entry curr).get entry' = _
    rw [HashMap.get_put]
    by_cases he : entry = entry'
    · simp [OFMessageDamper.pass, since, he]
    · rw [if_neg (Ne.symm he), h.cached]
      simp [OFMessageDamper.pass, since, he]
  justified := by
    refine h.justified.cons (.passed call entry curr) (fun h0 entry' => ?_) (fun _ _ _ heq => by cases heq) ?_
    · have hpaced := h.justified.paced h0 s.log List.suffix_rfl entry'
      unfold since
      split_ifs with he
      · subst he
        refine List.pairwise_cons.2 ⟨fun t ht => ?_, hpaced⟩
        have hhead := h.cached entry
        cases hsince : since entry s.log with
        | nil =>
          rw [hsince] at ht
          cases ht
        | cons prev ts =>
          rw [hsince] at ht hpaced hhead
          have hprev := hold prev hhead
          obtain rfl | ht := List.mem_cons.1 ht
          · exact hprev
          · have hlast := (List.pairwise_cons.1 hpaced).1 t ht
            omega
      · exact hpaced
    · rintro call' entry' curr' (heq | heq)
      · cases heq
      · cases heq
        exact htyped
  expired call' entry' curr' prev hget := by
    obtain ⟨hold', later, earlier, hlog, hhead⟩ := (h.returned call entry true).expired call' entry' curr' prev hget
    exact ⟨hold', _ :: later, earlier, congrArg _ hlog, hhead⟩
  typed := (h.returned call entry true).typed

/-- An entry is thrown out. -/
theorem Sound.evict (h : d.Sound s) (entry : DamperEntry μ ς) :
    d.Sound { s with cache := s.cache.remove entry, log := .evicted entry :: s.log } where
  cached entry' := by
    show (s.cache.remove entry).get entry' = _
    rw [HashMap.get_remove]
    by_cases he : entry = entry'
    · simp [since, he]
    · rw [if_neg (Ne.symm he), h.cached]
      simp [since, he]
  justified := by
    refine h.justified.cons (.evicted entry) (fun h0 entry' => ?_) (fun _ _ _ heq => by cases heq) ?_
    · unfold since
      split_ifs
      · exact List.Pairwise.nil
      · exact h.justified.paced h0 s.log List.suffix_rfl entry'
    · rintro _ _ _ (heq | heq) <;> cases heq
  expired call entry' curr prev hget := by
    obtain ⟨hold, later, earlier, hlog, hhead⟩ := h.expired call entry' curr prev hget
    exact ⟨hold, _ :: later, earlier, congrArg _ hlog, hhead⟩
  typed := h.typed

theorem Sound.dampen (h : d.Sound s) (htyped : d.getType entry.msg ∈ d.msgTypesToCache)
    (hexplained : Explained d.timeoutInterval call entry curr s.log) : d.Sound (dampen s call entry curr) := by
  refine (h.returned call entry false).logged (.dampened call entry curr) (fun _ => rfl) ?_ fun _ _ _ => nofun
  rintro call' entry' curr' heq
  cases heq
  exact ⟨hexplained, htyped⟩

/-- A call comes upon an old time. -/
theorem Sound.expire (h : d.Sound s) (htyped : d.getType entry.msg ∈ d.msgTypesToCache) {prev : ℤ}
    (hprev : s.cache.get entry = some prev) (hold : curr - prev > d.timeoutInterval) :
    d.Sound { OFMessageDamper.goOn s call entry (.expired curr prev) with
      log := .expired call entry curr prev :: s.log } := by
  have hlogged := h.logged (.expired call entry curr prev) (fun _ => rfl) (fun _ _ _ => nofun) fun _ _ _ => nofun
  refine ⟨hlogged.cached, hlogged.justified, fun call' entry' curr' prev' hget => ?_,
    fun call' entry' c hget => ?_⟩
  · rw [get_goOn] at hget
    split_ifs at hget with hcall
    · cases hget
      exact ⟨hold, [], s.log, by rw [hcall]; rfl, (h.cached entry).symm.trans hprev⟩
    · exact hlogged.expired call' entry' curr' prev' hget
  · rw [get_goOn] at hget
    split_ifs at hget
    · cases hget
      exact fun _ => htyped
    · exact h.typed call' entry' c hget

/-- A call that loses the replacement. -/
theorem explained_of_lost (h : d.Sound s) {prev : ℤ} (hget : s.calls.get call = some (entry, .expired curr prev))
    (hlost : s.cache.get entry ≠ some prev) : Explained d.timeoutInterval call entry curr s.log := by
  obtain ⟨-, later, earlier, hlog, hhead⟩ := h.expired call entry curr prev hget
  refine .inr ⟨prev, later, earlier, hlog, ?_⟩
  by_contra hquiet
  push Not at hquiet
  refine hlost ?_
  rw [h.cached, hlog, since_append hquiet.1 hquiet.2]
  exact hhead

variable [DecidableEq τ]

theorem Sound.step (h : d.Sound s) (a : DamperStep μ ς) : d.Sound (d.step s a) := by
  cases a with
  | write call sw msg =>
    unfold OFMessageDamper.step
    dsimp only
    split_ifs with hcall htype
    · exact h
    · exact h.goOn call ⟨msg, sw⟩ .called (fun _ _ => nofun) fun _ => htype
    · exact (h.returned call ⟨msg, sw⟩ true).logged (.forwarded call ⟨msg, sw⟩) (fun _ => rfl) (fun _ _ _ => nofun)
        fun _ _ _ => nofun
  | currentTimeMillis call =>
    unfold OFMessageDamper.step
    dsimp only
    split
    · next entry hget => exact h.goOn call entry (.timed s.now) (fun _ _ => nofun) fun _ => h.typed call entry _ hget fun _ => nofun
    · exact h
  | putIfAbsent call =>
    unfold OFMessageDamper.step
    dsimp only
    split
    · next entry curr hget =>
      have htyped := h.typed call entry _ hget fun _ => nofun
      split
      · next hnone => exact h.pass htyped fun prev hprev => absurd (hnone.symm.trans hprev) nofun
      · next prev hprev =>
        split_ifs with hold
        · exact h.expire htyped hprev hold
        · refine h.dampen htyped (.inl ?_)
          obtain ⟨j, hj⟩ := passed_of_mem_since (List.mem_of_mem_head? ((h.cached entry).symm.trans hprev))
          exact ⟨j, prev, hj, not_lt.1 hold⟩
    · exact h
  | replace call =>
    unfold OFMessageDamper.step
    dsimp only
    split
    · next entry curr prev hget =>
      have htyped := h.typed call entry _ hget fun _ => nofun
      split_ifs with hsame
      · refine h.pass htyped fun prev' hprev' => ?_
        obtain rfl := Option.some.inj (hsame.symm.trans hprev')
        exact (h.expired call entry curr prev hget).1
      · exact h.dampen htyped (explained_of_lost h hget hsame)
    · exact h
  | tick ms => exact ⟨h.cached, h.justified, h.expired, h.typed⟩
  | evict entry =>
    unfold OFMessageDamper.step
    dsimp only
    split_ifs
    · exact h.evict entry
    · exact h

end OFMessageDamper

end Torpedo
