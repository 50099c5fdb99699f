import Mathlib.Algebra.BigOperators.Group.List.Basic
import Mathlib.Algebra.Order.Group.Int
import Mathlib.Algebra.Order.BigOperators.Group.List
import Mathlib.Data.List.Perm.Subperm
import Mathlib.Logic.Relation
import Mathlib.Order.Bounds.Basic
import Mathlib.Tactic.Linarith

/-!
# Walks in directed multigraphs

Edges are values of their own, so that two nodes may be joined by several. A walk is the list of its
edges; its cost is the sum of their weights.
-/

namespace Torpedo

structure Multigraph (V E : Type) where
  src : E → V
  dst : E → V
  IsEdge : E → Prop

namespace Multigraph

variable {V E : Type} (G : Multigraph V E)

/-- Some edge leads from `u` to `v`. -/
def Adj (u v : V) : Prop := ∃ e, G.IsEdge e ∧ G.src e = u ∧ G.dst e = v

def Reaches : V → V → Prop := Relation.ReflTransGen G.Adj

/-- `v` and `w` reach each other. -/
def Mutual (v w : V) : Prop := G.Reaches v w ∧ G.Reaches w v

inductive Walk : V → V → List E → Prop
  | nil (v : V) : Walk v v []
  | cons {e : E} {es : List E} {w : V} :
    G.IsEdge e → Walk (G.dst e) w es → Walk (G.src e) w (e :: es)

/-- The walk along `es` to `w` meets no node twice. -/
def Simple (es : List E) (w : V) : Prop := (es.map G.src ++ [w]).Nodup

/-- The sum of the weights. -/
def cost (wt : E → ℤ) (es : List E) : ℤ := (es.map wt).sum

/-- The costs of the walks from `v` to `w`. -/
def costs (wt : E → ℤ) (v w : V) : Set ℤ := {x | ∃ es, G.Walk v w es ∧ cost wt es = x}

/-! ## Reachability -/

variable {G}

theorem Reaches.refl (v : V) : G.Reaches v v := Relation.ReflTransGen.refl

theorem Reaches.trans {u v w : V} (h : G.Reaches u v) (h' : G.Reaches v w) : G.Reaches u w :=
  Relation.ReflTransGen.trans h h'

theorem Reaches.edge {e : E} (h : G.IsEdge e) : G.Reaches (G.src e) (G.dst e) :=
  Relation.ReflTransGen.single ⟨e, h, rfl, rfl⟩

theorem Mutual.refl (v : V) : G.Mutual v v := ⟨.refl v, .refl v⟩

theorem Mutual.symm {v w : V} (h : G.Mutual v w) : G.Mutual w v := ⟨h.2, h.1⟩

theorem Mutual.trans {u v w : V} (h : G.Mutual u v) (h' : G.Mutual v w) : G.Mutual u w :=
  ⟨h.1.trans h'.1, h'.2.trans h.2⟩

theorem Walk.reaches {v w : V} {es : List E} (h : G.Walk v w es) : G.Reaches v w := by
  induction h with
  | nil v => exact .refl v
  | cons he _ ih => exact (Reaches.edge he).trans ih

theorem Reaches.exists_walk {v w : V} (h : G.Reaches v w) : ∃ es, G.Walk v w es := by
  induction h using Relation.ReflTransGen.head_induction_on with
  | refl => exact ⟨[], .nil w⟩
  | head hadj _ ih =>
    obtain ⟨e, he, rfl, rfl⟩ := hadj
    obtain ⟨es, hes⟩ := ih
    exact ⟨e :: es, .cons he hes⟩

/-! ## Walks -/

theorem Reaches.exists_last {v w : V} (h : G.Reaches v w) (hne : v ≠ w) :
    ∃ e, G.IsEdge e ∧ G.dst e = w := by
  rcases Relation.ReflTransGen.cases_tail h with rfl | ⟨u, -, e, he, -, hdst⟩
  · exact absurd rfl hne
  · exact ⟨e, he, hdst⟩

theorem Walk.eq_of_nil {v w : V} (h : G.Walk v w []) : v = w := by
  cases h
  rfl

theorem Walk.of_cons {v w : V} {e : E} {es : List E} (h : G.Walk v w (e :: es)) :
    G.IsEdge e ∧ G.src e = v ∧ G.Walk (G.dst e) w es := by
  cases h with
  | cons he h => exact ⟨he, rfl, h⟩

theorem Walk.append {u v w : V} {es es' : List E} (h : G.Walk u v es) (h' : G.Walk v w es') :
    G.Walk u w (es ++ es') := by
  induction h with
  | nil v => exact h'
  | cons he _ ih => exact .cons he (ih h')

theorem Walk.isEdge {v w : V} {es : List E} (h : G.Walk v w es) : ∀ e ∈ es, G.IsEdge e := by
  induction h with
  | nil v => simp
  | cons he _ ih =>
    intro e' he'
    rcases List.mem_cons.1 he' with rfl | he'
    · exact he
    · exact ih e' he'

/-- A node that has a walk to `w` and is not `w` has a first edge. -/
theorem Walk.exists_edge {v w : V} {es : List E} (h : G.Walk v w es) (hne : v ≠ w) :
    ∃ e es', G.IsEdge e ∧ G.src e = v ∧ G.Walk (G.dst e) w es' ∧ es = e :: es' := by
  cases h with
  | nil => exact absurd rfl hne
  | cons he h' => exact ⟨_, _, he, rfl, h', rfl⟩

@[simp] theorem cost_nil (wt : E → ℤ) : cost wt [] = 0 := rfl

@[simp] theorem cost_cons (wt : E → ℤ) (e : E) (es : List E) :
    cost wt (e :: es) = wt e + cost wt es := by
  unfold cost
  rw [List.map_cons, List.sum_cons]

theorem Walk.cost_nonneg {wt : E → ℤ} (hwt : ∀ e, G.IsEdge e → 0 < wt e) {v w : V} {es : List E}
    (h : G.Walk v w es) : 0 ≤ cost wt es := by
  induction h with
  | nil v => simp
  | cons he _ ih =>
    rw [cost_cons]
    have := hwt _ he
    omega

theorem isLeast_costs_self {wt : E → ℤ} (hwt : ∀ e, G.IsEdge e → 0 < wt e) (v : V) :
    IsLeast (G.costs wt v v) 0 := by
  refine ⟨⟨[], .nil v, rfl⟩, ?_⟩
  rintro x ⟨es, h, rfl⟩
  exact h.cost_nonneg hwt

/-- Nodes on a simple walk between nodes of `vs` are at most as many as `vs`. -/
theorem Walk.length_lt {v w : V} {es : List E} (h : G.Walk v w es) (hs : G.Simple es w)
    {vs : List V} (hvs : ∀ e, G.IsEdge e → G.src e ∈ vs) (hw : w ∈ vs) :
    es.length < vs.length := by
  have hsub : es.map G.src ++ [w] ⊆ vs := by
    intro x hx
    rcases List.mem_append.1 hx with hx | hx
    · obtain ⟨e, he, rfl⟩ := List.mem_map.1 hx
      exact hvs e (h.isEdge e he)
    · rw [List.mem_singleton.1 hx]
      exact hw
  have hle := (List.subperm_of_subset hs hsub).length_le
  rw [List.length_append, List.length_map, List.length_singleton] at hle
  omega

theorem Walk.cost_le {wt : E → ℤ} {b : ℤ} (hb : ∀ e, G.IsEdge e → wt e ≤ b) {v w : V}
    {es : List E} (h : G.Walk v w es) : cost wt es ≤ es.length * b := by
  induction h with
  | nil v => simp
  | @cons e es w he _ ih =>
    rw [cost_cons, List.length_cons]
    push_cast
    have := hb e he
    linarith

/-- Costs on a walk with values that go down by at least the weight of every edge. -/
theorem Reaches.induction_on_edge {P : V → Prop} {v w : V} (h : G.Reaches v w) (hw : P w)
    (hedge : ∀ e, G.IsEdge e → P (G.dst e) → P (G.src e)) : P v := by
  induction h using Relation.ReflTransGen.head_induction_on with
  | refl => exact hw
  | head hadj _ ih =>
    obtain ⟨e, he, rfl, rfl⟩ := hadj
    exact hedge e he ih

end Multigraph

end Torpedo
