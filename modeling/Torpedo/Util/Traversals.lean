import Mathlib.Data.List.Forall2
import Mathlib.Logic.Relation
import Torpedo.Util.ByteBuffer

/-!
# Traversals that do not remember where they were

From a state, the edges are read, and then the state behind each of them is traversed in turn. What is
collected are the edges that can be reached, if each way from the state ends and the edges of each state on it
can be read. Otherwise nothing is returned.
-/

namespace Torpedo

structure Traversal (σ ε : Type) where
  Edge : σ → ε → Prop
  next : σ → ε → σ
  /-- The edges as they are read. -/
  edges : σ → Except Stop (List ε)
  mem_edges : ∀ {a es e}, edges a = .ok es → (e ∈ es ↔ Edge a e)

namespace Traversal

variable {σ ε : Type}

/-- The results of some calls, one behind the other. -/
def collect (f : ε → Except Stop (List ε)) : List ε → Except Stop (List ε)
  | [] => .ok []
  | e :: es => do
    let here ← f e
    let rest ← collect f es
    return here ++ rest

theorem bind_eq_ok_iff {α β : Type} {x : Except Stop α} {f : α → Except Stop β} {c : β} :
    (x >>= f) = .ok c ↔ ∃ a, x = .ok a ∧ f a = .ok c := by
  constructor
  · intro h
    cases x with
    | error stop => cases h
    | ok a => exact ⟨a, rfl, h⟩
  · rintro ⟨a, rfl, h⟩
    exact h

theorem collect_eq_ok_iff {f : ε → Except Stop (List ε)} {es r : List ε} :
    collect f es = .ok r ↔ ∃ rs, List.Forall₂ (fun e r => f e = .ok r) es rs ∧ rs.flatten = r := by
  induction es generalizing r with
  | nil =>
    constructor
    · intro h
      exact ⟨[], .nil, Except.ok.inj h⟩
    · rintro ⟨rs, hrs, rfl⟩
      cases hrs
      rfl
  | cons e es ih =>
    simp only [collect, bind_eq_ok_iff]
    constructor
    · rintro ⟨here, hhere, rest, hrest, hr⟩
      obtain ⟨rs, hrs, rfl⟩ := ih.1 hrest
      exact ⟨here :: rs, .cons hhere hrs, Except.ok.inj hr⟩
    · rintro ⟨rs, hrs, rfl⟩
      cases hrs with
      | cons hhere hrs => exact ⟨_, hhere, _, ih.2 ⟨_, hrs, rfl⟩, rfl⟩

variable (T : Traversal σ ε)

/-- The traversal, with fuel for the depth. -/
def run : ℕ → σ → Except Stop (List ε)
  | 0, _ => .error .outOfFuel
  | fuel + 1, a => do
    let es ← T.edges a
    let rest ← collect (fun e => run fuel (T.next a e)) es
    return es ++ rest

/-- An edge of `a` leads to `b`. -/
def Step (a b : σ) : Prop := ∃ e, T.Edge a e ∧ T.next a e = b

def Reaches : σ → σ → Prop := Relation.ReflTransGen T.Step

/-- The edges that can be reached. -/
def Met (a : σ) (e : ε) : Prop := ∃ b, T.Reaches a b ∧ T.Edge b e

/-- Each way from the state ends, and all edges on it can be read. -/
structure Finite (a : σ) : Prop where
  acc : Acc (fun b a => T.Step a b) a
  readable : ∀ b, T.Reaches a b → ∃ es, T.edges b = .ok es

/-- The traversal ends with a result. -/
def Returns (a : σ) (r : List ε) : Prop := ∃ fuel, T.run fuel a = .ok r

variable {T} {a b : σ} {e : ε} {es r r' : List ε}

theorem run_succ_eq_ok_iff {fuel : ℕ} : T.run (fuel + 1) a = .ok r ↔
    ∃ es rs, T.edges a = .ok es ∧ List.Forall₂ (fun e r => T.run fuel (T.next a e) = .ok r) es rs ∧
      es ++ rs.flatten = r := by
  simp only [run, bind_eq_ok_iff, collect_eq_ok_iff]
  constructor
  · rintro ⟨es, hedges, rest, ⟨rs, hrs, rfl⟩, hr⟩
    exact ⟨es, rs, hedges, hrs, Except.ok.inj hr⟩
  · rintro ⟨es, rs, hedges, hrs, rfl⟩
    exact ⟨es, hedges, _, ⟨rs, hrs, rfl⟩, rfl⟩

/-- More fuel does not change a result. -/
theorem run_mono {n m : ℕ} (hle : n ≤ m) (h : T.run n a = .ok r) : T.run m a = .ok r := by
  induction n generalizing m a r with
  | zero => cases h
  | succ n ih =>
    obtain ⟨m, rfl⟩ := Nat.exists_eq_add_of_le' (Nat.one_le_of_lt (Nat.lt_of_succ_le hle))
    obtain ⟨es, rs, hedges, hrs, rfl⟩ := run_succ_eq_ok_iff.1 h
    exact run_succ_eq_ok_iff.2 ⟨es, rs, hedges, hrs.imp fun e r hr => ih (Nat.le_of_succ_le_succ hle) hr, rfl⟩

theorem Returns.unique (h : T.Returns a r) (h' : T.Returns a r') : r = r' := by
  obtain ⟨n, h⟩ := h
  obtain ⟨m, h'⟩ := h'
  have hn := run_mono (Nat.le_max_left n m) h
  have hm := run_mono (Nat.le_max_right n m) h'
  exact Except.ok.inj (hn.symm.trans hm)

theorem exists_fuel {f : ε → σ} {rs : List (List ε)}
    (h : List.Forall₂ (fun e r => T.Returns (f e) r) es rs) :
    ∃ fuel, List.Forall₂ (fun e r => T.run fuel (f e) = .ok r) es rs := by
  induction h with
  | nil => exact ⟨0, .nil⟩
  | cons h _ ih =>
    obtain ⟨n, hn⟩ := h
    obtain ⟨m, hm⟩ := ih
    exact ⟨max n m, .cons (run_mono (Nat.le_max_left n m) hn)
      (hm.imp fun e r hr => run_mono (Nat.le_max_right n m) hr)⟩

/-- The edges of the state, and behind them what the next states give. -/
theorem returns_iff : T.Returns a r ↔
    ∃ es rs, T.edges a = .ok es ∧ List.Forall₂ (fun e r => T.Returns (T.next a e) r) es rs ∧
      es ++ rs.flatten = r := by
  constructor
  · rintro ⟨fuel, h⟩
    cases fuel with
    | zero => cases h
    | succ fuel =>
      obtain ⟨es, rs, hedges, hrs, hr⟩ := run_succ_eq_ok_iff.1 h
      exact ⟨es, rs, hedges, hrs.imp fun e r hr => ⟨fuel, hr⟩, hr⟩
  · rintro ⟨es, rs, hedges, hrs, hr⟩
    obtain ⟨fuel, hrs⟩ := exists_fuel hrs
    exact ⟨fuel + 1, run_succ_eq_ok_iff.2 ⟨es, rs, hedges, hrs, hr⟩⟩

/-! ## When it ends -/

theorem Finite.of_next (hedges : T.edges a = .ok es) (h : ∀ e ∈ es, T.Finite (T.next a e)) : T.Finite a := by
  have hstep : ∀ b, T.Step a b → T.Finite b := by
    rintro b ⟨e, hedge, rfl⟩
    exact h e ((T.mem_edges hedges).2 hedge)
  refine ⟨.intro a fun b hb => (hstep b hb).acc, fun b hb => ?_⟩
  obtain rfl | ⟨c, hc, hreach⟩ := hb.cases_head
  · exact ⟨es, hedges⟩
  · exact (hstep c hc).readable b hreach

theorem Finite.step (h : T.Finite a) (hstep : T.Step a b) : T.Finite b :=
  ⟨h.acc.inv hstep, fun _ hreach => h.readable _ (.head hstep hreach)⟩

theorem exists_forall₂ {R : ε → List ε → Prop} (h : ∀ e ∈ es, ∃ r, R e r) :
    ∃ rs, List.Forall₂ R es rs := by
  induction es with
  | nil => exact ⟨[], .nil⟩
  | cons e es ih =>
    obtain ⟨r, hr⟩ := h e List.mem_cons_self
    obtain ⟨rs, hrs⟩ := ih fun e he => h e (List.mem_cons_of_mem _ he)
    exact ⟨r :: rs, .cons hr hrs⟩

theorem exists_of_forall₂ {R : ε → List ε → Prop} {rs : List (List ε)} (h : List.Forall₂ R es rs)
    (he : e ∈ es) : ∃ r ∈ rs, R e r := by
  induction h with
  | nil => cases he
  | cons h _ ih =>
    obtain rfl | he := List.mem_cons.1 he
    · exact ⟨_, List.mem_cons_self, h⟩
    · obtain ⟨r, hr, hR⟩ := ih he
      exact ⟨r, List.mem_cons_of_mem _ hr, hR⟩

/-- The traversal returns exactly if each way ends and all edges can be read. -/
theorem exists_returns_iff : (∃ r, T.Returns a r) ↔ T.Finite a := by
  constructor
  · rintro ⟨r, fuel, h⟩
    induction fuel generalizing a r with
    | zero => cases h
    | succ fuel ih =>
      obtain ⟨es, rs, hedges, hrs, -⟩ := run_succ_eq_ok_iff.1 h
      refine .of_next hedges fun e he => ?_
      obtain ⟨r', -, hr'⟩ := exists_of_forall₂ hrs he
      exact ih r' hr'
  · intro h
    have hacc := h.acc
    induction hacc with
    | intro a _ ih =>
      obtain ⟨es, hedges⟩ := h.readable a .refl
      have hnext : ∀ e ∈ es, ∃ r, T.Returns (T.next a e) r := fun e he =>
        have hstep : T.Step a (T.next a e) := ⟨e, (T.mem_edges hedges).1 he, rfl⟩
        ih _ hstep (h.step hstep)
      obtain ⟨rs, hrs⟩ := exists_forall₂ hnext
      exact ⟨_, returns_iff.2 ⟨es, rs, hedges, hrs, rfl⟩⟩

/-! ## What is collected -/

theorem Met.of_next (hedge : T.Edge a e) {e' : ε} (h : T.Met (T.next a e) e') : T.Met a e' := by
  obtain ⟨b, hreach, he'⟩ := h
  exact ⟨b, .head ⟨e, hedge, rfl⟩ hreach, he'⟩

theorem met_iff {e' : ε} : T.Met a e' ↔ T.Edge a e' ∨ ∃ e, T.Edge a e ∧ T.Met (T.next a e) e' := by
  constructor
  · rintro ⟨b, hreach, he'⟩
    obtain rfl | ⟨c, ⟨e, hedge, rfl⟩, hreach⟩ := hreach.cases_head
    · exact .inl he'
    · exact .inr ⟨e, hedge, b, hreach, he'⟩
  · rintro (hedge | ⟨e, hedge, hmet⟩)
    · exact ⟨a, .refl, hedge⟩
    · exact .of_next hedge hmet

theorem mem_flatten_of_forall₂ {R : ε → List ε → Prop} {P : ε → Prop} {rs : List (List ε)}
    (h : List.Forall₂ R es rs) {e' : ε} (hR : ∀ e r, e ∈ es → R e r → (e' ∈ r ↔ P e)) :
    e' ∈ rs.flatten ↔ ∃ e ∈ es, P e := by
  induction h with
  | nil => simp
  | cons h _ ih =>
    have hhead := hR _ _ List.mem_cons_self h
    have htail := ih fun e r he => hR e r (List.mem_cons_of_mem _ he)
    simp [hhead, htail]

/-- What is returned are the edges that can be reached. -/
theorem Returns.mem_iff (h : T.Returns a r) (e : ε) : e ∈ r ↔ T.Met a e := by
  obtain ⟨fuel, h⟩ := h
  induction fuel generalizing a r with
  | zero => cases h
  | succ fuel ih =>
    obtain ⟨es, rs, hedges, hrs, rfl⟩ := run_succ_eq_ok_iff.1 h
    have hbehind : e ∈ rs.flatten ↔ ∃ e₁ ∈ es, T.Met (T.next a e₁) e :=
      mem_flatten_of_forall₂ hrs fun e₁ r he₁ hr => ih hr
    rw [List.mem_append, hbehind, met_iff]
    simp only [T.mem_edges hedges]

/-! ## Two states with the same next states -/

theorem forall₂_unique {R : ε → List ε → Prop} (hR : ∀ e r r', R e r → R e r' → r = r')
    {rs rs' : List (List ε)} (h : List.Forall₂ R es rs) (h' : List.Forall₂ R es rs') : rs = rs' := by
  induction h generalizing rs' with
  | nil =>
    cases h'
    rfl
  | cons h _ ih =>
    cases h' with
    | cons h₁ h₂ => rw [hR _ _ _ h h₁, ih h₂]

/-- A list of edges that goes on gives more. -/
theorem eq_of_append {R : ε → List ε → Prop} (hR : ∀ e r r', R e r → R e r' → r = r')
    {more : List ε} {rs rs' : List (List ε)} (h : List.Forall₂ R es rs)
    (h' : List.Forall₂ R (es ++ more) rs') (heq : es ++ rs.flatten = es ++ more ++ rs'.flatten) : more = [] := by
  obtain ⟨rs₁, rs₂, h₁, h₂, rfl⟩ : ∃ rs₁ rs₂, List.Forall₂ R es rs₁ ∧ List.Forall₂ R more rs₂ ∧
      rs' = rs₁ ++ rs₂ := by
    refine ⟨rs'.take es.length, rs'.drop es.length, ?_, ?_, (List.take_append_drop _ _).symm⟩
    · exact (List.forall₂_take_append rs' es more h'.flip).flip
    · exact (List.forall₂_drop_append rs' es more h'.flip).flip
  obtain rfl := forall₂_unique hR h h₁
  have hlength := congrArg List.length heq
  simp only [List.length_append, List.flatten_append] at hlength
  exact List.eq_nil_of_length_eq_zero (by omega)

/-- If the same edge leads from both to the same state, they give the same only with the same edges. -/
theorem Returns.eq_iff {es' : List ε} (hnext : ∀ e, T.next a e = T.next b e) (h : T.Returns a r)
    (h' : T.Returns b r') (hedges : T.edges a = .ok es) (hedges' : T.edges b = .ok es') :
    r = r' ↔ es = es' := by
  obtain ⟨_, rs, hes, hrs, rfl⟩ := returns_iff.1 h
  obtain ⟨_, rs', hes', hrs', rfl⟩ := returns_iff.1 h'
  cases hedges.symm.trans hes
  cases hedges'.symm.trans hes'
  simp only [← hnext] at hrs'
  have hunique : ∀ e r r', T.Returns (T.next a e) r → T.Returns (T.next a e) r' → r = r' :=
    fun e r r' => Returns.unique
  constructor
  · intro heq
    obtain hprefix | hprefix := List.prefix_or_prefix_of_prefix (List.prefix_append es rs.flatten)
      (heq ▸ List.prefix_append es' rs'.flatten)
    · obtain ⟨more, rfl⟩ := hprefix
      rw [eq_of_append hunique hrs hrs' heq, List.append_nil]
    · obtain ⟨more, rfl⟩ := hprefix
      rw [eq_of_append hunique hrs' hrs heq.symm, List.append_nil]
  · rintro rfl
    rw [forall₂_unique hunique hrs hrs']

end Traversal

end Torpedo
