import Mathlib.Tactic.Push
import Torpedo.Util.ByteBuffer

/-!
# Methods

A method changes a state, and returns or throws. What it has changed before it throws stays changed. `Ends`
says what holds behind a method, if it returns and if it throws; `Keeps` is an invariant of a method.
-/

namespace Torpedo

def Method (σ α : Type) : Type := σ → Except Stop α × σ

namespace Method

variable {σ τ α β : Type}

instance : Monad (Method σ) where
  pure a := fun s => (.ok a, s)
  bind m f := fun s => match m s with
    | (.ok a, s') => f a s'
    | (.error e, s') => (.error e, s')

def get : Method σ σ := fun s => (.ok s, s)

def modify (f : σ → σ) : Method σ Unit := fun s => (.ok (), f s)

def throw : Method σ α := fun s => (.error .exception, s)

/-- The value of a reference that may be null. -/
def nonNull : Option α → Method σ α
  | some a => pure a
  | none => throw

/-- A result that does not depend on the state. -/
def ofExcept (r : Except Stop α) : Method σ α := fun s => (r, s)

/-- An exception is logged. -/
def catchAll (m : Method σ Unit) : Method σ Unit := fun s => (.ok (), (m s).2)

def forEach (f : α → Method σ Unit) : List α → Method σ Unit
  | [] => pure ()
  | a :: as => do
    f a
    forEach f as

/-- A method of a part of the state. -/
def zoom (part : σ → τ) (set : τ → σ → σ) (m : Method τ α) : Method σ α := fun s =>
  ((m (part s)).1, set (m (part s)).2 s)

/-! ## Results -/

variable {s s' : σ} {m : Method σ α} {f : α → Method σ β} {a : α}

@[simp] theorem pure_apply : (pure a : Method σ α) s = (.ok a, s) := rfl

@[simp] theorem get_apply : get s = (.ok s, s) := rfl

@[simp] theorem modify_apply (g : σ → σ) : modify g s = (.ok (), g s) := rfl

@[simp] theorem throw_apply : (throw : Method σ α) s = (.error .exception, s) := rfl

@[simp] theorem nonNull_some : nonNull (some a) = (pure a : Method σ α) := rfl

@[simp] theorem nonNull_none : nonNull none = (throw : Method σ α) := rfl

@[simp] theorem ofExcept_apply (r : Except Stop α) : (ofExcept r : Method σ α) s = (r, s) := rfl

@[simp] theorem ofExcept_ok : ofExcept (.ok a) = (pure a : Method σ α) := rfl

@[simp] theorem catchAll_apply (m : Method σ Unit) : catchAll m s = (.ok (), (m s).2) := rfl

@[simp] theorem zoom_apply (part : σ → τ) (set : τ → σ → σ) (m : Method τ α) :
    zoom part set m s = ((m (part s)).1, set (m (part s)).2 s) := rfl

theorem bind_ok (h : m s = (.ok a, s')) : (m >>= f) s = f a s' := by
  show (match m s with | (.ok a, s') => f a s' | (.error e, s') => (.error e, s')) = _
  rw [h]

theorem bind_error {e : Stop} (h : m s = (.error e, s')) : (m >>= f) s = (.error e, s') := by
  show (match m s with | (.ok a, s') => f a s' | (.error e, s') => (.error e, s')) = _
  rw [h]

theorem of_bind_eq_ok {b : β} (h : (m >>= f) s = (.ok b, s')) :
    ∃ a s₁, m s = (.ok a, s₁) ∧ f a s₁ = (.ok b, s') := by
  cases hm : m s with
  | mk r s₁ =>
    cases r with
    | ok a => exact ⟨a, s₁, rfl, (bind_ok hm).symm.trans h⟩
    | error e => exact nomatch congrArg Prod.fst ((bind_error hm).symm.trans h)

@[simp] theorem pure_bind : (pure a : Method σ α) >>= f = f a := rfl

@[simp] theorem throw_bind : (throw : Method σ α) >>= f = throw := rfl

@[simp] theorem get_bind_apply (f : σ → Method σ β) : (get >>= f) s = f s s := rfl

@[simp] theorem modify_bind_apply (g : σ → σ) (f : Unit → Method σ β) : (modify g >>= f) s = f () (g s) := rfl

@[simp] theorem forEach_nil (f : α → Method σ Unit) : forEach f [] = pure () := rfl

theorem forEach_cons (f : α → Method σ Unit) (as : List α) :
    forEach f (a :: as) = (f a >>= fun _ => forEach f as) := rfl

theorem forEach_append (f : α → Method σ Unit) (as bs : List α) :
    forEach f (as ++ bs) = (forEach f as >>= fun _ => forEach f bs) := by
  induction as with
  | nil => rfl
  | cons a as ih =>
    funext s
    rw [List.cons_append, forEach_cons, forEach_cons, ih]
    cases hf : f a s with
    | mk r s' =>
      cases r with
      | ok u =>
        rw [bind_ok hf]
        cases has : forEach f as s' with
        | mk r' s'' =>
          have hboth : (f a >>= fun _ => forEach f as) s = (r', s'') := (bind_ok hf).trans has
          cases r' with
          | ok u' => rw [bind_ok has, bind_ok hboth]
          | error e => rw [bind_error has, bind_error hboth]
      | error e =>
        have hone : (f a >>= fun _ => forEach f as) s = (.error e, s') := bind_error hf
        rw [bind_error hf, bind_error hone]

theorem forEach_map (f : β → Method σ Unit) (g : α → β) (as : List α) :
    forEach f (as.map g) = forEach (fun a => f (g a)) as := by
  induction as with
  | nil => rfl
  | cons a as ih => rw [List.map_cons, forEach_cons, forEach_cons, ih]

/-- Nested loops are a loop over the pairs. -/
theorem forEach_forEach (f : α → β → Method σ Unit) (as : List α) (bs : List β) :
    forEach (fun a => forEach (f a) bs) as =
      forEach (fun ab => f ab.1 ab.2) (as.flatMap fun a => bs.map (a, ·)) := by
  induction as with
  | nil => rfl
  | cons a as ih => rw [List.flatMap_cons, forEach_append, forEach_map, ← ih, forEach_cons]

/-! ## Postconditions -/

/-- What holds if the method returns, and what holds if it throws. -/
def Post (Q : α → σ → Prop) (E : σ → Prop) : Except Stop α × σ → Prop
  | (.ok a, s) => Q a s
  | (.error _, s) => E s

/-- From a state, a method ends as the postconditions say. -/
def Ends (m : Method σ α) (s : σ) (Q : α → σ → Prop) (E : σ → Prop) : Prop := Post Q E (m s)

section Ends

variable {Q Q' : α → σ → Prop} {R : β → σ → Prop} {E E' : σ → Prop}

theorem Ends.imp (h : m.Ends s Q E) (hQ : ∀ a s', Q a s' → Q' a s') (hE : ∀ s', E s' → E' s') :
    m.Ends s Q' E' := by
  unfold Ends at h ⊢
  cases hm : m s with
  | mk r s' =>
    rw [hm] at h
    cases r with
    | ok a => exact hQ a s' h
    | error e => exact hE s' h

theorem Ends.and (h : m.Ends s Q E) (h' : m.Ends s Q' E') :
    m.Ends s (fun a s' => Q a s' ∧ Q' a s') fun s' => E s' ∧ E' s' := by
  unfold Ends at h h' ⊢
  cases hm : m s with
  | mk r s' =>
    rw [hm] at h h'
    cases r with
    | ok a => exact ⟨h, h'⟩
    | error e => exact ⟨h, h'⟩

/-- What holds in any case is about the state alone. -/
theorem ends_iff {I : σ → Prop} : m.Ends s (fun _ => I) I ↔ I (m s).2 := by
  unfold Ends
  cases m s with
  | mk r s' => cases r <;> exact Iff.rfl

theorem ends_throw (h : E s) : (throw : Method σ α).Ends s Q E := h

theorem ends_get {Q : σ → σ → Prop} (h : Q s s) : get.Ends s Q E := h

theorem ends_modify {Q : Unit → σ → Prop} {g : σ → σ} (h : Q () (g s)) : (modify g).Ends s Q E := h

theorem ends_nonNull {o : Option α} (hsome : ∀ a, o = some a → Q a s) (hnone : o = none → E s) :
    (nonNull o : Method σ α).Ends s Q E := by
  cases o with
  | some a => exact hsome a rfl
  | none => exact hnone rfl

theorem Ends.bind (h : m.Ends s Q E) (hf : ∀ a s', Q a s' → (f a).Ends s' R E) :
    (m >>= f).Ends s R E := by
  unfold Ends at h
  cases hm : m s with
  | mk r s' =>
    rw [hm] at h
    cases r with
    | ok a =>
      unfold Ends
      rw [bind_ok hm]
      exact hf a s' h
    | error e =>
      unfold Ends
      rw [bind_error hm]
      exact h

theorem ends_get_bind {f : σ → Method σ β} (h : (f s).Ends s R E) : (get >>= f).Ends s R E := h

theorem ends_modify_bind {g : σ → σ} {f : Unit → Method σ β} (h : (f ()).Ends (g s) R E) :
    (modify g >>= f).Ends s R E := h

theorem ends_nonNull_bind {o : Option α} (hsome : ∀ a, o = some a → (f a).Ends s R E) (hnone : o = none → E s) :
    (nonNull o >>= f).Ends s R E := by
  cases o with
  | some a => exact hsome a rfl
  | none => exact hnone rfl

theorem Ends.catchAll {m : Method σ Unit} {Q : Unit → σ → Prop} (h : m.Ends s Q (Q ())) :
    (catchAll m).Ends s Q E := by
  unfold Ends at h
  show Q () (m s).2
  cases hm : m s with
  | mk r s' =>
    rw [hm] at h
    cases r with
    | ok a => exact h
    | error e => exact h

/-- An invariant of a loop, for the elements that are left. -/
theorem ends_forEach {f : α → Method σ Unit} {I : List α → σ → Prop}
    (hf : ∀ a as s, I (a :: as) s → (f a).Ends s (fun _ => I as) E) {as : List α} (h : I as s) :
    (forEach f as).Ends s (fun _ => I []) E := by
  induction as generalizing s with
  | nil => exact h
  | cons a as ih => exact (hf a as s h).bind fun _ _ h' => ih h'

theorem Ends.zoom {part : σ → τ} {set : τ → σ → σ} {m : Method τ α} {Q : α → τ → Prop} {E : τ → Prop}
    {Q' : α → σ → Prop} {E' : σ → Prop} (h : m.Ends (part s) Q E)
    (hQ : ∀ a t, Q a t → Q' a (set t s)) (hE : ∀ t, E t → E' (set t s)) :
    (zoom part set m).Ends s Q' E' := by
  unfold Ends at h ⊢
  rw [zoom_apply]
  cases hm : m (part s) with
  | mk r t =>
    rw [hm] at h
    cases r with
    | ok a => exact hQ a t h
    | error e => exact hE t h

end Ends

/-! ## Invariants -/

/-- A method keeps an invariant, whether it returns or throws. -/
def Keeps (I : σ → Prop) (m : Method σ α) : Prop := ∀ s, I s → I (m s).2

section Keeps

variable {I : σ → Prop}

theorem keeps_iff : Keeps I m ↔ ∀ s, I s → m.Ends s (fun _ => I) I :=
  forall_congr' fun _ => imp_congr_right fun _ => ends_iff.symm

theorem keeps_pure : Keeps I (pure a : Method σ α) := fun _ h => h

theorem keeps_throw : Keeps I (throw : Method σ α) := fun _ h => h

theorem keeps_get : Keeps I (get : Method σ σ) := fun _ h => h

theorem keeps_modify {g : σ → σ} (h : ∀ s, I s → I (g s)) : Keeps I (modify g) := h

theorem keeps_nonNull (o : Option α) : Keeps I (nonNull o : Method σ α) := by
  cases o with
  | some a => exact keeps_pure
  | none => exact keeps_throw

theorem keeps_ofExcept (r : Except Stop α) : Keeps I (ofExcept r : Method σ α) := fun _ h => h

theorem Keeps.bind (h : Keeps I m) (hf : ∀ a, Keeps I (f a)) : Keeps I (m >>= f) :=
  keeps_iff.2 fun s hs => (keeps_iff.1 h s hs).bind fun a s' hs' => keeps_iff.1 (hf a) s' hs'

theorem Keeps.catchAll {m : Method σ Unit} (h : Keeps I m) : Keeps I (catchAll m) := h

theorem keeps_forEach {f : α → Method σ Unit} (h : ∀ a, Keeps I (f a)) (as : List α) :
    Keeps I (forEach f as) := by
  induction as with
  | nil => exact keeps_pure
  | cons a as ih => exact (h a).bind fun _ => ih

end Keeps

/-! ## Bad elements of a loop -/

/-- The loop comes to an element that is bad in the state of then. -/
def Meets (f : α → Method σ Unit) (bad : α → σ → Prop) : List α → σ → Prop
  | [], _ => False
  | a :: as, s => bad a s ∨ ∃ s', f a s = (.ok (), s') ∧ Meets f bad as s'

section Meets

variable {f : α → Method σ Unit} {bad : α → σ → Prop} {P L : σ → Prop}

/-- An invariant that only bad elements break holds behind a loop that comes to none. -/
theorem forEach_of_not_meets (hgood : ∀ a s, P s → ¬bad a s → P (f a s).2) {as : List α} (hs : P s)
    (hmeets : ¬Meets f bad as s) : P (forEach f as s).2 := by
  induction as generalizing s with
  | nil => exact hs
  | cons a as ih =>
    unfold Meets at hmeets
    push Not at hmeets
    have ha := hgood a s hs hmeets.1
    rw [forEach_cons]
    cases hfa : f a s with
    | mk r s' =>
      rw [hfa] at ha
      cases r with
      | ok u =>
        rw [bind_ok hfa]
        exact ih ha (hmeets.2 s' hfa)
      | error e =>
        rw [bind_error hfa]
        exact ha

/-- What a bad element brings about, and the others keep, holds behind a loop that comes to one. -/
theorem forEach_of_meets (hgood : ∀ a s, P s → ¬bad a s → P (f a s).2)
    (hbad : ∀ a s, P s → bad a s → L (f a s).2) (hL : ∀ a, Keeps L (f a)) {as : List α} (hs : P s)
    (hmeets : Meets f bad as s) : L (forEach f as s).2 := by
  induction as generalizing s with
  | nil => exact hmeets.elim
  | cons a as ih =>
    rw [forEach_cons]
    cases hfa : f a s with
    | mk r s' =>
      by_cases ha : bad a s
      · have hlost := hbad a s hs ha
        rw [hfa] at hlost
        cases r with
        | ok u =>
          rw [bind_ok hfa]
          exact keeps_forEach hL as s' hlost
        | error e =>
          rw [bind_error hfa]
          exact hlost
      · obtain ⟨s'', hfa', hrest⟩ := hmeets.resolve_left ha
        obtain ⟨rfl, rfl⟩ := Prod.mk.inj (hfa.symm.trans hfa')
        have hgood' := hgood a s hs ha
        rw [hfa] at hgood'
        rw [bind_ok hfa]
        exact ih hgood' hrest

end Meets

end Method

end Torpedo
