import Torpedo.Util.Collections
import Torpedo.Util.Runs

/-!
# The message damper

`OFMessageDamper` does not write a message to a switch again before some time has passed. Calls of `write` run at the
same time: a call reads the clock, looks its entry up in the cache of `TimedCache`, and replaces the entry if that
is too old. The cache throws entries out when there are too many.
-/

namespace Torpedo

/-- `DamperEntry`: a message, and the switch of the connection. -/
structure DamperEntry (μ ς : Type) where
  msg : μ
  sw : Option ς
deriving DecidableEq

/-- `OFMessageDamper` and its `TimedCache`, but for the entries. -/
structure OFMessageDamper (μ τ : Type) where
  getType : μ → τ
  msgTypesToCache : List τ
  capacity : ℕ
  timeoutInterval : ℤ

/-- Where a call of `write` stands. -/
inductive UpdateCall
  | called
  /-- It has read the clock. -/
  | timed (curr : ℤ)
  /-- `putIfAbsent` has returned a time that is too long ago. -/
  | expired (curr prev : ℤ)
  | returned (written : Bool)
deriving DecidableEq

/-- What the calls do to the messages, and what they find. -/
inductive DamperEvent (μ ς : Type)
  /-- A message of another type is written. -/
  | forwarded (call : ℕ) (entry : DamperEntry μ ς)
  | expired (call : ℕ) (entry : DamperEntry μ ς) (curr prev : ℤ)
  | passed (call : ℕ) (entry : DamperEntry μ ς) (curr : ℤ)
  | dampened (call : ℕ) (entry : DamperEntry μ ς) (curr : ℤ)
  | evicted (entry : DamperEntry μ ς)
deriving DecidableEq

/-- The clock, the cache, the calls and what has happened, the latest first. -/
structure DamperState (μ ς : Type) where
  now : ℤ
  cache : HashMap (DamperEntry μ ς) ℤ
  calls : HashMap ℕ (DamperEntry μ ς × UpdateCall)
  log : List (DamperEvent μ ς)

/-- What happens in one atomic step. -/
inductive DamperStep (μ ς : Type)
  /-- A thread calls `write`. -/
  | write (call : ℕ) (sw : Option ς) (msg : μ)
  | currentTimeMillis (call : ℕ)
  | putIfAbsent (call : ℕ)
  | replace (call : ℕ)
  | tick (ms : ℕ)
  | evict (entry : DamperEntry μ ς)

namespace OFMessageDamper

variable {μ ς τ : Type} [DecidableEq μ] [DecidableEq ς] [DecidableEq τ]

/-- A call goes on, or returns. -/
def goOn (s : DamperState μ ς) (call : ℕ) (entry : DamperEntry μ ς) (c : UpdateCall) : DamperState μ ς :=
  { s with calls := s.calls.put call (entry, c) }

/-- The message is written. -/
def pass (s : DamperState μ ς) (call : ℕ) (entry : DamperEntry μ ς) (curr : ℤ) : DamperState μ ς :=
  { goOn s call entry (.returned true) with
    cache := s.cache.put entry curr
    log := .passed call entry curr :: s.log }

/-- The message is dropped. -/
def dampen (s : DamperState μ ς) (call : ℕ) (entry : DamperEntry μ ς) (curr : ℤ) : DamperState μ ς :=
  { goOn s call entry (.returned false) with log := .dampened call entry curr :: s.log }

def step (d : OFMessageDamper μ τ) (s : DamperState μ ς) : DamperStep μ ς → DamperState μ ς
  | .write call sw msg =>
    if s.calls.containsKey call then s
    else if d.getType msg ∈ d.msgTypesToCache then goOn s call ⟨msg, sw⟩ .called
    else { goOn s call ⟨msg, sw⟩ (.returned true) with log := .forwarded call ⟨msg, sw⟩ :: s.log }
  | .currentTimeMillis call =>
    match s.calls.get call with
    | some (entry, .called) => goOn s call entry (.timed s.now)
    | _ => s
  | .putIfAbsent call =>
    match s.calls.get call with
    | some (entry, .timed curr) =>
      match s.cache.get entry with
      | none => pass s call entry curr
      | some prev =>
        if curr - prev > d.timeoutInterval then
          { goOn s call entry (.expired curr prev) with log := .expired call entry curr prev :: s.log }
        else dampen s call entry curr
    | _ => s
  | .replace call =>
    match s.calls.get call with
    | some (entry, .expired curr prev) =>
      if s.cache.get entry = some prev then pass s call entry curr else dampen s call entry curr
    | _ => s
  | .tick ms => { s with now := s.now + ms }
  | .evict entry =>
    if s.cache.keySet.length > d.capacity ∧ s.cache.containsKey entry then
      { s with cache := s.cache.remove entry, log := .evicted entry :: s.log }
    else s

/-- Nothing has been called yet. -/
def initial (now : ℤ) : DamperState μ ς := ⟨now, ∅, ∅, []⟩

end OFMessageDamper

namespace DamperEvent

variable {μ ς : Type} [DecidableEq μ] [DecidableEq ς]

/-- When the entry has been passed since it was last evicted, the latest first. -/
def since (entry : DamperEntry μ ς) : List (DamperEvent μ ς) → List ℤ
  | [] => []
  | .passed _ e curr :: log => if e = entry then curr :: since entry log else since entry log
  | .evicted e :: log => if e = entry then [] else since entry log
  | .forwarded _ _ :: log => since entry log
  | .expired _ _ _ _ :: log => since entry log
  | .dampened _ _ _ :: log => since entry log

/-- The entry was passed no longer ago than the timeout; or, after the call had looked it up, another call passed it
or it was evicted. -/
def Explained (timeout : ℤ) (call : ℕ) (entry : DamperEntry μ ς) (curr : ℤ) (log : List (DamperEvent μ ς)) : Prop :=
  (∃ j t, .passed j entry t ∈ log ∧ curr - t ≤ timeout) ∨
    ∃ prev later earlier, log = later ++ .expired call entry curr prev :: earlier ∧
      ((∃ j t, .passed j entry t ∈ later) ∨ .evicted entry ∈ later)

variable {entry : DamperEntry μ ς} {log later earlier : List (DamperEvent μ ς)} {t : ℤ}

theorem passed_of_mem_since (h : t ∈ since entry log) : ∃ j, .passed j entry t ∈ log := by
  induction log with
  | nil => cases h
  | cons event log ih =>
    have hrest : t ∈ since entry log → ∃ j, .passed j entry t ∈ event :: log := fun h => by
      obtain ⟨j, hj⟩ := ih h
      exact ⟨j, List.mem_cons_of_mem _ hj⟩
    cases event with
    | passed call e curr =>
      unfold since at h
      split_ifs at h with he
      · subst he
        obtain rfl | h := List.mem_cons.1 h
        · exact ⟨call, List.mem_cons_self⟩
        · exact hrest h
      · exact hrest h
    | evicted e =>
      unfold since at h
      split_ifs at h
      · cases h
      · exact hrest h
    | forwarded => exact hrest h
    | expired => exact hrest h
    | dampened => exact hrest h

/-- What is neither passed nor evicted stands as it did. -/
theorem since_append (hpassed : ∀ j t, .passed j entry t ∉ later) (hevicted : .evicted entry ∉ later) :
    since entry (later ++ earlier) = since entry earlier := by
  induction later with
  | nil => rfl
  | cons event later ih =>
    have hrest := ih (fun j t h => hpassed j t (List.mem_cons_of_mem _ h)) fun h => hevicted (List.mem_cons_of_mem _ h)
    cases event with
    | passed call e curr =>
      have he : e ≠ entry := fun he => hpassed call curr (by rw [he]; exact List.mem_cons_self)
      exact (if_neg he).trans hrest
    | evicted e =>
      have he : e ≠ entry := fun he => hevicted (by rw [he]; exact List.mem_cons_self)
      exact (if_neg he).trans hrest
    | forwarded => exact hrest
    | expired => exact hrest
    | dampened => exact hrest

end DamperEvent

end Torpedo
